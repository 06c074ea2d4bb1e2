import ComponentCatalog.Proofs.ComponentLookup
import ComponentCatalog.Proofs.Results
import ComponentCatalog.Proofs.StableRanking
import ComponentCatalog.Query.Utility

/-!
# Which utility a name means

A ready index answers with the module of the name, with the first function of that very name, or with the
first function whose name contains it. Only where there is none of these does it answer with suggestions.
-/

namespace ComponentCatalog

open Work

variable {index : Index} {settings : Settings} {name : Text}

/-! ## First functions -/

section

variable {p : FunctionDecl → Prop} {q : FunctionDecl → Bool} {found : FoundFunction}

/-- The first function that `p` holds of, module by module and in the order of declarations. -/
inductive FirstFunction (index : Index) (p : FunctionDecl → Prop) : FoundFunction → Prop
  | intro {before after : List (Text × UtilityRecord)} {earlier later : List FunctionDecl} {key : Text}
      {u : UtilityRecord} {f : FunctionDecl}
      (modules : index.utilities.entries = before ++ (key, u) :: after)
      (functions : u.functions = earlier ++ f :: later)
      (holds : p f)
      (before : ∀ e ∈ before, ∀ g ∈ e.2.functions, ¬ p g)
      (earlier : ∀ g ∈ earlier, ¬ p g) :
      FirstFunction index p ⟨f, key, u⟩

/-- `p` holds of no function of any module. -/
def NoFunction (index : Index) (p : FunctionDecl → Prop) : Prop :=
  ∀ e ∈ index.utilities.entries, ∀ g ∈ e.2.functions, ¬ p g

/-- The module of a function is found by its name in the index, and declares the function. -/
theorem FirstFunction.mem (h : FirstFunction index p found) :
    index.utilities.find? found.moduleName = some found.module_ ∧ found.function ∈ found.module_.functions := by
  cases h with
  | intro modules functions =>
      refine ⟨OrderedMap.mem_entries_iff.1 ?_, ?_⟩
      · rw [modules]
        exact List.mem_append_right _ List.mem_cons_self
      · show _ ∈ UtilityRecord.functions _
        rw [functions]
        exact List.mem_append_right _ List.mem_cons_self

theorem FirstFunction.not_noFunction (h : FirstFunction index p found) : ¬ NoFunction index p := by
  obtain ⟨hmodule, hfunction⟩ := h.mem
  cases h with
  | intro _ _ holds => exact fun hnone => hnone _ (OrderedMap.mem_entries_iff.2 hmodule) _ hfunction holds

theorem find?_moduleFunctions (index : Index) (q : FunctionDecl → Bool) :
    index.moduleFunctions.find? (fun f => q f.function) =
      index.utilities.entries.findSome? fun e => (e.2.functions.find? q).map (⟨·, e.1, e.2⟩) := by
  refine List.find?_flatMap.trans (congrArg (List.findSome? · _) (funext fun e => ?_))
  exact List.find?_map ..

theorem noFunction_of_find? (hq : ∀ g, q g = true ↔ p g)
    (h : index.moduleFunctions.find? (fun f => q f.function) = none) : NoFunction index p := by
  rw [find?_moduleFunctions, List.findSome?_eq_none_iff] at h
  intro e he g hg hp
  have hnone := Option.map_eq_none_iff.1 (h e he)
  exact List.find?_eq_none.1 hnone g hg ((hq g).2 hp)

theorem firstFunction_of_find? (hq : ∀ g, q g = true ↔ p g)
    (h : index.moduleFunctions.find? (fun f => q f.function) = some found) : FirstFunction index p found := by
  rw [find?_moduleFunctions] at h
  obtain ⟨before, e, after, hmodules, hfound, hbefore⟩ := List.findSome?_eq_some_iff.1 h
  obtain ⟨f, hf, rfl⟩ := Option.map_eq_some_iff.1 hfound
  obtain ⟨hholds, earlier, later, hfunctions, hearlier⟩ := List.find?_eq_some_iff_append.1 hf
  refine .intro hmodules hfunctions ((hq f).1 hholds) (fun e' he' g hg hp => ?_) fun g hg hp => ?_
  · have hnone := Option.map_eq_none_iff.1 (hbefore e' he')
    exact List.find?_eq_none.1 hnone g hg ((hq g).2 hp)
  · simpa [(hq g).2 hp] using hearlier g hg

end

/-! ## What a name can mean -/

/-- The name of a function contains a name, regardless of case. -/
def Contains (name : Text) (g : FunctionDecl) : Prop := name.lower <:+: g.name.lower

/-- Nothing has a name, and no function has a name that contains it. -/
structure Unknown (index : Index) (name : Text) : Prop where
  unnamed : name ∉ index.utilities.keys
  uncontained : NoFunction index (Contains name)

theorem function?_eq_some {found : FoundFunction} (h : index.function? name = some found) :
    FirstFunction index (fun g => g.name = name) found ∨
      NoFunction index (fun g => g.name = name) ∧ FirstFunction index (Contains name) found := by
  rcases Option.or_eq_some_iff.1 h with hnamed | ⟨hunnamed, hcontaining⟩
  · exact .inl (firstFunction_of_find? (q := fun g => g.name == name) (fun _ => beq_iff_eq) hnamed)
  · refine .inr ⟨?_, ?_⟩
    · exact noFunction_of_find? (q := fun g => g.name == name) (fun _ => beq_iff_eq) hunnamed
    · exact firstFunction_of_find? (q := fun g => Text.includes name.lower g.name.lower)
        (fun _ => Text.includes_iff) hcontaining

theorem noFunction_of_function? (h : index.function? name = none) : NoFunction index (Contains name) :=
  noFunction_of_find? (q := fun g => Text.includes name.lower g.name.lower) (fun _ => Text.includes_iff)
    (Option.or_eq_none_iff.1 h).2

/-! ## Suggestions -/

section

variable {α : Type} {candidates : List (Text × α)} {suggestions : List α}

theorem suggest_eq_ok (h : suggest settings name candidates = .ok suggestions) :
    ∃ threshold limit, settings.suggestionThreshold = .ok threshold ∧ settings.maxSuggestions = .ok limit ∧
      rank name candidates threshold limit = suggestions := by
  obtain ⟨threshold, hthreshold, h⟩ := exists_of_bind_ok h
  obtain ⟨limit, hlimit, h⟩ := exists_of_bind_ok h
  exact ⟨threshold, limit, hthreshold, hlimit, Except.ok.inj h⟩

theorem suggest_eq_error {e : SettingError} (h : suggest settings name candidates = .error e) :
    settings.suggestionThreshold = .error e ∨ settings.maxSuggestions = .error e := by
  rcases bind_eq_error h with hthreshold | ⟨threshold, -, h⟩
  · exact .inl hthreshold
  · rcases bind_eq_error h with hlimit | ⟨limit, -, h⟩
    · exact .inr hlimit
    · cases h

theorem mem_of_mem_upTo {limit : Int} {xs : List α} {x : α} (h : x ∈ upTo limit xs) : x ∈ xs := by
  cases limit with
  | ofNat n => exact List.mem_of_mem_take h
  | negSucc n => exact List.mem_of_mem_take h

theorem exists_of_mem_rank {threshold : Double} {limit : Int} {s : α}
    (h : s ∈ rank name candidates threshold limit) :
    ∃ key, (key, s) ∈ candidates ∧ threshold.lt (similarity name key) = true := by
  rw [rank_eq] at h
  obtain ⟨⟨key, s⟩, hc, rfl⟩ := List.mem_map.1 (mem_of_mem_upTo h)
  exact ⟨key, List.mem_filter.1 ((mostSimilarFirst_perm ..).mem_iff.1 hc)⟩

end

/-- A module by its name, or a function of the module that is named as its parent. -/
def IsUtility (index : Index) (s : UtilitySuggestion) : Prop :=
  match s.parent with
  | none => s.name ∈ index.utilities.keys
  | some key => ∃ u, index.utilities.find? key = some u ∧ ∃ f ∈ u.functions, f.name = s.name

theorem isUtility_of_mem_candidates {key : Text} {s : UtilitySuggestion} (h : (key, s) ∈ index.utilityCandidates) :
    s.name = key ∧ IsUtility index s := by
  obtain ⟨⟨moduleName, u⟩, he, h⟩ := List.mem_flatMap.1 h
  rcases List.mem_cons.1 h with h | h
  · cases h
    exact ⟨rfl, List.mem_map_of_mem he⟩
  · obtain ⟨f, hf, h⟩ := List.mem_map.1 h
    cases h
    exact ⟨rfl, u, OrderedMap.mem_entries_iff.1 he, f, hf, rfl⟩

/-- Suggestions for a name: modules and functions of the index that are more similar to it than the
threshold, as they are ranked and up to the limit. -/
structure SuggestsUtilities (index : Index) (name : Text) (threshold : Double) (limit : Int)
    (suggestions : List UtilitySuggestion) : Prop where
  indexed : ∀ s ∈ suggestions, IsUtility index s
  similar : ∀ s ∈ suggestions, threshold.lt (similarity name s.name) = true
  ranked : ∃ ranked, IsRanking name (above name threshold index.utilityCandidates) ranked ∧
    suggestions = upTo limit (ranked.map (·.2))

theorem rank_suggestsUtilities (index : Index) (name : Text) (threshold : Double) (limit : Int) :
    SuggestsUtilities index name threshold limit (rank name index.utilityCandidates threshold limit) := by
  constructor
  case indexed =>
    intro s hs
    obtain ⟨key, hc, -⟩ := exists_of_mem_rank hs
    exact (isUtility_of_mem_candidates hc).2
  case similar =>
    intro s hs
    obtain ⟨key, hc, habove⟩ := exists_of_mem_rank hs
    rwa [(isUtility_of_mem_candidates hc).1]
  case ranked => exact ⟨_, mostSimilarFirst_isRanking .., rank_eq ..⟩

/-! ## Answers -/

/-- What a ready index answers to a name, each way counting only if those before it fail. -/
inductive UtilityMeant (index : Index) (settings : Settings) (name : Text) : UtilityAnswer → Prop
  | module {u : UtilityRecord} (h : index.utilities.find? name = some u) :
      UtilityMeant index settings name (.module u (index.utilityExamples name))
  | named {found : FoundFunction} (unnamed : name ∉ index.utilities.keys)
      (first : FirstFunction index (fun g => g.name = name) found) :
      UtilityMeant index settings name (.function found (index.utilityExamples name))
  | containing {found : FoundFunction} (unnamed : name ∉ index.utilities.keys)
      (none : NoFunction index fun g => g.name = name)
      (first : FirstFunction index (Contains name) found) :
      UtilityMeant index settings name (.function found (index.utilityExamples name))
  | missing {threshold : Double} {limit : Int} {suggestions : List UtilitySuggestion}
      (unknown : Unknown index name)
      (above : settings.suggestionThreshold = .ok threshold)
      (most : settings.maxSuggestions = .ok limit)
      (suggests : SuggestsUtilities index name threshold limit suggestions) :
      UtilityMeant index settings name (.missing name suggestions)

theorem answerUtility_spec (index : Index) (settings : Settings) (name : Text) :
    (∃ answer, index.answerUtility settings name = .ok answer ∧ UtilityMeant index settings name answer) ∨
      ∃ e, index.answerUtility settings name = .error e ∧ Unknown index name ∧
        (settings.suggestionThreshold = .error e ∨ settings.maxSuggestions = .error e) := by
  cases hmodule : index.utilities.find? name with
  | some u =>
      refine .inl ⟨_, ?_, .module hmodule⟩
      rw [Index.answerUtility, hmodule]
      rfl
  | none =>
      have hunnamed := OrderedMap.find?_eq_none_iff.1 hmodule
      cases hfunction : index.function? name with
      | some found =>
          refine .inl ⟨.function found (index.utilityExamples name), ?_, ?_⟩
          · rw [Index.answerUtility, hmodule]
            simp only [hfunction]
            rfl
          · rcases function?_eq_some hfunction with hnamed | ⟨hnone, hcontaining⟩
            · exact .named hunnamed hnamed
            · exact .containing hunnamed hnone hcontaining
      | none =>
          have hunknown : Unknown index name := ⟨hunnamed, noFunction_of_function? hfunction⟩
          have hanswer : index.answerUtility settings name =
              UtilityAnswer.missing name <$> suggest settings name index.utilityCandidates := by
            rw [Index.answerUtility, hmodule]
            simp only [hfunction]
            rfl
          rw [hanswer]
          cases hsuggest : suggest settings name index.utilityCandidates with
          | ok suggestions =>
              obtain ⟨threshold, limit, habove, hmost, rfl⟩ := suggest_eq_ok hsuggest
              exact .inl ⟨_, rfl, .missing hunknown habove hmost (rank_suggestsUtilities ..)⟩
          | error e => exact .inr ⟨e, rfl, hunknown, suggest_eq_error hsuggest⟩

theorem UtilityMeant.found_iff {answer : UtilityAnswer} (h : UtilityMeant index settings name answer) :
    answer.toJson.field? "found" = some (.bool true) ↔ ¬ Unknown index name := by
  cases h with
  | module h =>
      have hkey : name ∈ index.utilities.keys := OrderedMap.mem_keys.2 ⟨_, h⟩
      exact iff_of_true rfl fun hunknown => hunknown.unnamed hkey
  | named _ first =>
      refine iff_of_true rfl fun hunknown => ?_
      exact first.not_noFunction fun e he g hg hname =>
        hunknown.uncontained e he g hg (hname ▸ List.infix_refl _)
  | containing _ _ first =>
      exact iff_of_true rfl fun hunknown => first.not_noFunction hunknown.uncontained
  | missing unknown => exact iff_of_false nofun (not_not_intro unknown)

theorem UtilityMeant.first {found : FoundFunction} {examples : List CodeSample}
    (h : UtilityMeant index settings name (.function found examples)) : ∃ p, FirstFunction index p found := by
  cases h with
  | named _ first => exact ⟨_, first⟩
  | containing _ _ first => exact ⟨_, first⟩

/-- A ready index answers every question for a utility, and leaves everything as it is: it finds one unless
nothing is called so, and with a function it gives the module that declares it. Only to make suggestions
does it need settings, and only where they cannot be read does it fail. -/
theorem queryUtility_answers (lib : Library) {w : Workspace} (hready : w.index.ready = true) (name : Text) :
    (∃ answer log, queryUtility lib name w = .ok answer ⟨w.index, log⟩ ∧
      UtilityMeant w.index lib.settings name answer ∧
      (answer.toJson.field? "found" = some (.bool true) ↔ ¬ Unknown w.index name) ∧
      ∀ found examples, answer = .function found examples →
        w.index.utilities.find? found.moduleName = some found.module_ ∧
        found.function ∈ found.module_.functions ∧
        answer.toJson.field? "parent_module" = some (.str found.moduleName) ∧
        answer.toJson.field? "file_path" = some (.str found.module_.filePath)) ∨
    ∃ e log, queryUtility lib name w = .error (.setting e) ⟨w.index, log⟩ ∧ Unknown w.index name ∧
      (lib.settings.suggestionThreshold = .error e ∨ lib.settings.maxSuggestions = .error e) := by
  obtain ⟨log, hquery⟩ : ∃ log, queryUtility lib name w = _ := setting_ready hready
    (fun index => index.answerUtility lib.settings name) .info ("Querying utility: " ++ name)
  rcases answerUtility_spec w.index lib.settings name with ⟨answer, hanswer, hmeant⟩ | ⟨e, hanswer, hunknown, hsetting⟩
  · rw [hanswer] at hquery
    refine .inl ⟨answer, log, hquery, hmeant, hmeant.found_iff, ?_⟩
    rintro found examples rfl
    obtain ⟨p, hfirst⟩ := hmeant.first
    exact ⟨hfirst.mem.1, hfirst.mem.2, rfl, rfl⟩
  · rw [hanswer] at hquery
    exact .inr ⟨e, log, hquery, hunknown, hsetting⟩

/-- A ready index of two modules: the function `format` is in the second one, and in the first one is a
function whose name contains that. -/
def formats : Workspace where
  index := {
    utilities := (({} : OrderedMap Text UtilityRecord).insert "texts"
      { name := "texts", filePath := "utils/texts.js", functions := [⟨"reformat", .arrow, true⟩] }).insert "dates"
      { name := "dates", filePath := "utils/dates.js",
        functions := [⟨"parse", .declared, true⟩, ⟨"format", .declared, false⟩] }
    ready := true }

theorem queryUtility_answers_formats : formats.index.ready = true ∧
    ∃ answer log, queryUtility avatarLibrary "format" formats = .ok answer ⟨formats.index, log⟩ ∧
      UtilityMeant formats.index avatarLibrary.settings "format" answer ∧
      answer.toJson.field? "found" = some (.bool true) ∧
      ∀ found examples, answer = .function found examples →
        formats.index.utilities.find? found.moduleName = some found.module_ ∧
        answer.toJson.field? "parent_module" = some (.str found.moduleName) := by
  have hknown : ¬ Unknown formats.index "format" := fun hunknown =>
    hunknown.uncontained _ (.tail _ (.head _)) ⟨"format", .declared, false⟩ (.tail _ (.head _)) (List.infix_refl _)
  rcases queryUtility_answers avatarLibrary (w := formats) rfl "format" with
    ⟨answer, log, hquery, hmeant, hfound, hfunction⟩ | ⟨e, log, -, hunknown, -⟩
  · refine ⟨rfl, answer, log, hquery, hmeant, hfound.2 hknown, fun found examples heq => ?_⟩
    obtain ⟨hmodule, -, hparent, -⟩ := hfunction found examples heq
    exact ⟨hmodule, hparent⟩
  · exact absurd hunknown hknown

example : (formats.index.function? "format").map (·.moduleName) = some "dates".toList := by decide

example : (formats.index.function? "Form").map (·.moduleName) = some "texts".toList := by decide

end ComponentCatalog
