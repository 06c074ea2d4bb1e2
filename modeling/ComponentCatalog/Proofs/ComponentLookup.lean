import ComponentCatalog.Files.Memory
import ComponentCatalog.Proofs.OrderedMap
import ComponentCatalog.Proofs.Ranking
import ComponentCatalog.Proofs.Work
import ComponentCatalog.Query.Component

/-!
# Which component a name means

A ready index answers with the component of the name, with the first one that fits the hint at a
category, or with the first of the most similar ones. Only where there is none of these does it answer
with suggestions, and then with the most similar names that are left.
-/

namespace ComponentCatalog

open Work

variable {index : Index} {name : Text} {category : Option Text} {accept threshold : Double} {limit : Int}

theorem Text.includes_iff {part t : Text} : Text.includes part t = true ↔ part <:+: t := by
  induction t with
  | nil => simp [includes]
  | cons c r ih => simp [includes, ih, List.infix_cons_iff]

/-! ## The three ways to mean a component -/

/-- A component lies in a category, and its name contains the other name or stands in it. -/
def Fits (name hint : Text) (entry : Text × ComponentRecord) : Prop :=
  hint <:+: entry.2.category ∧ (name.lower <:+: entry.1.lower ∨ entry.1.lower <:+: name.lower)

theorem fitsHint_iff {hint key : Text} {c : ComponentRecord} :
    Index.fitsHint name hint key c = true ↔ Fits name hint (key, c) := by
  simp [Index.fitsHint, Fits, Text.includes_iff]

/-- There is a hint that is not empty, and the entry fits it. -/
def Hinted (name : Text) (category : Option Text) (entry : Text × ComponentRecord) : Prop :=
  ∃ hint, category = some hint ∧ hint ≠ [] ∧ Fits name hint entry

/-- Some component can be meant by a name. -/
inductive Findable (index : Index) (name : Text) (category : Option Text) (accept : Double) : Prop
  | exact (h : name ∈ index.components.keys)
  | hinted {entry : Text × ComponentRecord} (mem : entry ∈ index.components.entries)
      (h : Hinted name category entry)
  | similar {key : Text} (mem : key ∈ index.components.keys)
      (h : max accept.order 0 < closeness name key)

/-- The component that a name means, each way counting only if those before it fail. -/
inductive Meant (index : Index) (name : Text) (category : Option Text) (accept : Double) :
    ComponentRecord → Prop
  | exact {c : ComponentRecord} (h : index.components.find? name = some c) : Meant index name category accept c
  | hinted {before after : List (Text × ComponentRecord)} {entry : Text × ComponentRecord}
      (unnamed : name ∉ index.components.keys)
      (split : index.components.entries = before ++ entry :: after)
      (h : Hinted name category entry)
      (first : ∀ e ∈ before, ¬ Hinted name category e) :
      Meant index name category accept entry.2
  | similar {before after : List (Text × ComponentRecord)} {key : Text} {c : ComponentRecord}
      (unnamed : name ∉ index.components.keys)
      (unhinted : ∀ e ∈ index.components.entries, ¬ Hinted name category e)
      (split : index.components.entries = before ++ (key, c) :: after)
      (h : max accept.order 0 < closeness name key)
      (first : ∀ e ∈ before, closeness name e.1 < closeness name key)
      (most : ∀ e ∈ after, closeness name e.1 ≤ closeness name key) :
      Meant index name category accept c

theorem Meant.findable {c : ComponentRecord} (h : Meant index name category accept c) :
    Findable index name category accept := by
  cases h with
  | exact h => exact .exact (OrderedMap.mem_keys.2 ⟨c, h⟩)
  | hinted _ split h => exact .hinted (by simp [split]) h
  | similar _ _ split h => exact .similar (by simp [OrderedMap.keys, split]) h

/-- Is there a hint that is not empty, and does the entry fit it? -/
def isHinted (name : Text) (category : Option Text) (entry : Text × ComponentRecord) : Bool :=
  category.any fun hint => !hint.isEmpty && Index.fitsHint name hint entry.1 entry.2

theorem isHinted_iff {entry : Text × ComponentRecord} :
    isHinted name category entry = true ↔ Hinted name category entry := by
  cases category with
  | none => simp [isHinted, Hinted]
  | some hint => simp [isHinted, Hinted, fitsHint_iff]

theorem hinted?_eq : index.hinted? name category =
    (index.components.entries.find? (isHinted name category)).map (·.2) := by
  have hnone {category : Option Text} (h : ∀ e, isHinted name category e = false) :
      index.components.entries.find? (isHinted name category) = none :=
    List.find?_eq_none.2 fun e _ => by simp [h e]
  rcases category with _ | (_ | ⟨c, hint⟩)
  · rw [hnone fun _ => rfl]
    rfl
  · rw [hnone fun _ => rfl]
    rfl
  · rfl

theorem hinted?_eq_none (h : index.hinted? name category = none) :
    ∀ e ∈ index.components.entries, ¬ Hinted name category e := by
  intro e he hhint
  rw [hinted?_eq, Option.map_eq_none_iff, List.find?_eq_none] at h
  exact h e he (isHinted_iff.2 hhint)

theorem exists_of_hinted?_eq_some {c : ComponentRecord} (h : index.hinted? name category = some c) :
    ∃ before key after, index.components.entries = before ++ (key, c) :: after ∧
      Hinted name category (key, c) ∧ ∀ e ∈ before, ¬ Hinted name category e := by
  rw [hinted?_eq] at h
  obtain ⟨entry, hentry, rfl⟩ := Option.map_eq_some_iff.1 h
  obtain ⟨hfits, before, after, hsplit, hbefore⟩ := List.find?_eq_some_iff_append.1 hentry
  refine ⟨before, entry.1, after, hsplit, isHinted_iff.1 hfits, fun e he hhint => ?_⟩
  simpa [isHinted_iff.2 hhint] using hbefore e he

/-- The ways to find a component fail only if no component can be meant. -/
theorem findComponent?_spec (index : Index) (name : Text) (category : Option Text) {settings : Settings}
    (haccept : settings.acceptThreshold = .ok accept) (hnumber : accept.isNaN = false) :
    ∃ found, findComponent? index settings name category = .ok found ∧
      (∀ c, found = some c → Meant index name category accept c) ∧
      (found = none → ¬ Findable index name category accept) := by
  cases hexact : index.components.find? name with
  | some c =>
      refine ⟨some c, by simp [findComponent?, hexact], ?_, by simp⟩
      rintro _ ⟨⟩
      exact .exact hexact
  | none =>
      have hunnamed : name ∉ index.components.keys := by
        intro hmem
        obtain ⟨c, hc⟩ := OrderedMap.mem_keys.1 hmem
        simp [hexact] at hc
      cases hhinted : index.hinted? name category with
      | some c =>
          refine ⟨some c, by simp [findComponent?, hexact, hhinted], ?_, by simp⟩
          rintro _ ⟨⟩
          obtain ⟨before, key, after, hsplit, hfits, hbefore⟩ := exists_of_hinted?_eq_some hhinted
          exact .hinted hunnamed hsplit hfits hbefore
      | none =>
          have hunhinted := hinted?_eq_none hhinted
          refine ⟨index.similarComponent? name accept, ?_, ?_, ?_⟩
          · simp [findComponent?, hexact, hhinted, haccept]
          · intro c hc
            obtain ⟨before, key, after, hsplit, habove, hbefore, hafter⟩ :=
              exists_of_bestMatch?_eq_some hnumber hc
            exact .similar hunnamed hunhinted hsplit habove hbefore hafter
          · intro hnone hfindable
            have hbelow := (bestMatch?_eq_none_iff hnumber).1 hnone
            cases hfindable with
            | exact hmem => exact hunnamed hmem
            | hinted hmem hhint => exact hunhinted _ hmem hhint
            | similar hmem habove =>
                obtain ⟨entry, hentry, rfl⟩ := List.mem_map.1 hmem
                exact Int.not_le.2 habove (hbelow entry hentry)

/-! ## Suggestions -/

/-- Suggestions for a name that means no component: the most similar of the indexed names between the
two thresholds, at most `limit` of them and fewer only if there are no more. -/
structure Suggests (index : Index) (name : Text) (accept threshold : Double) (limit : Int)
    (suggestions : List ComponentSuggestion) : Prop where
  indexed : ∀ s ∈ suggestions, ∃ c, (s.name, c) ∈ index.components.entries ∧ s.category = c.category
  between : ∀ s ∈ suggestions, threshold.order < closeness name s.name ∧
    closeness name s.name ≤ max accept.order 0
  sorted : suggestions.Pairwise fun s t => closeness name t.name ≤ closeness name s.name
  distinct : (suggestions.map ComponentSuggestion.name).Nodup
  length : (suggestions.length : Int) =
    min limit (index.components.keys.countP fun key => threshold.order < closeness name key)
  best : ∀ key ∈ index.components.keys, threshold.order < closeness name key →
    key ∉ suggestions.map ComponentSuggestion.name →
    ∀ s ∈ suggestions, closeness name key ≤ closeness name s.name

/-- What is suggested of an entry. -/
def suggestion (entry : Text × ComponentRecord) : ComponentSuggestion := ⟨entry.1, entry.2.category⟩

theorem componentCandidates_eq (index : Index) :
    index.componentCandidates = (index.components.entries.map suggestion).map fun s => (s.name, s) := by
  rw [Index.componentCandidates, List.map_map]
  rfl

section

variable (index name) (hnumber : threshold.isNaN = false)
include hnumber

theorem suggestions_perm : (bestFirst name threshold index.componentCandidates).Perm
    ((index.components.entries.map suggestion).filter fun s => threshold.order < closeness name s.name) := by
  rw [componentCandidates_eq]
  exact bestFirst_perm hnumber ComponentSuggestion.name _

theorem mem_suggestions {s : ComponentSuggestion} :
    s ∈ bestFirst name threshold index.componentCandidates ↔
      (∃ e ∈ index.components.entries, suggestion e = s) ∧ threshold.order < closeness name s.name := by
  rw [(suggestions_perm index name hnumber).mem_iff, List.mem_filter, List.mem_map, decide_eq_true_eq]

theorem suggestions_pairwise : (bestFirst name threshold index.componentCandidates).Pairwise
    fun s t => closeness name t.name ≤ closeness name s.name := by
  rw [componentCandidates_eq]
  exact bestFirst_pairwise hnumber ComponentSuggestion.name _

theorem nodup_suggestions :
    ((bestFirst name threshold index.componentCandidates).map ComponentSuggestion.name).Nodup := by
  rw [((suggestions_perm index name hnumber).map _).nodup_iff]
  refine (List.filter_sublist.map ComponentSuggestion.name).nodup ?_
  rw [List.map_map]
  exact index.components.nodup

theorem length_suggestions : (bestFirst name threshold index.componentCandidates).length =
    index.components.keys.countP fun key => threshold.order < closeness name key := by
  rw [(suggestions_perm index name hnumber).length_eq, ← List.countP_eq_length_filter, List.countP_map,
    OrderedMap.keys, List.countP_map]
  rfl

end

theorem rank_suggests (hnumber : threshold.isNaN = false) (hlimit : 0 ≤ limit)
    (hmissing : ¬ Findable index name category accept) :
    Suggests index name accept threshold limit (rank name index.componentCandidates threshold limit) := by
  obtain ⟨n, rfl⟩ := Int.eq_ofNat_of_zero_le hlimit
  have hmem := fun s => mem_suggestions index name hnumber (s := s)
  have hsorted := suggestions_pairwise index name hnumber
  show Suggests index name accept threshold n
    ((bestFirst name threshold index.componentCandidates).take n)
  constructor
  case indexed =>
    intro s hs
    obtain ⟨⟨e, he, rfl⟩, -⟩ := (hmem s).1 (List.mem_of_mem_take hs)
    exact ⟨e.2, he, rfl⟩
  case between =>
    intro s hs
    obtain ⟨⟨e, he, rfl⟩, habove⟩ := (hmem s).1 (List.mem_of_mem_take hs)
    have hkey : (suggestion e).name ∈ index.components.keys := List.mem_map_of_mem he
    refine ⟨habove, Int.not_lt.1 fun hlt => ?_⟩
    exact hmissing (.similar hkey hlt)
  case sorted => exact hsorted.sublist (List.take_sublist n _)
  case distinct => exact ((List.take_sublist n _).map _).nodup (nodup_suggestions index name hnumber)
  case length =>
    rw [List.length_take, length_suggestions index name hnumber]
    omega
  case best =>
    intro key hkey habove hout s hs
    obtain ⟨e, he, rfl⟩ := List.mem_map.1 hkey
    have hranked := (hmem (suggestion e)).2 ⟨⟨e, he, rfl⟩, habove⟩
    rw [← List.take_append_drop n (bestFirst _ _ _)] at hranked hsorted
    rcases List.mem_append.1 hranked with hin | hleft
    · exact absurd (List.mem_map_of_mem hin) hout
    · obtain ⟨-, -, hfalling⟩ := List.pairwise_append.1 hsorted
      exact hfalling s hs (suggestion e) hleft

/-! ## Answers -/

theorem ensureBuilt_ready {lib : Library} {w : Workspace} (hready : w.index.ready = true) :
    ensureBuilt lib w = .ok () w := by
  unfold ensureBuilt
  rw [bind_apply]
  show (if (!w.index.ready) = true then build lib else pure ()) w = _
  rw [hready]
  rfl

/-- A ready index answers a question as it is; only the log grows. -/
theorem Work.setting_ready {α : Type} {lib : Library} {w : Workspace} (hready : w.index.ready = true)
    (x : Index → Except SettingError α) (level : Level) (text : Text) :
    ∃ log, (do
      note .queries level text
      ensureBuilt lib
      setting (x (← get).index)) w = ending ((x w.index).mapError .setting) ⟨w.index, log⟩ := by
  obtain ⟨log, hnote⟩ := Does.note .queries level text w
  have hbuilt : ensureBuilt lib ⟨w.index, w.log ++ log⟩ = .ok () ⟨w.index, w.log ++ log⟩ :=
    ensureBuilt_ready hready
  refine ⟨w.log ++ log, ?_⟩
  rw [bind_apply, hnote]
  show (ensureBuilt lib >>= fun _ => _) (⟨w.index, w.log ++ log⟩ : Workspace) = _
  rw [bind_apply, hbuilt]
  show setting (x w.index) _ = _
  cases x w.index <;> rfl

theorem queryComponent_ready {lib : Library} {w : Workspace} (hready : w.index.ready = true)
    {hint : CategoryHint} {answer : ComponentAnswer}
    (h : w.index.answerComponent lib.settings name hint.text? = .ok answer) :
    ∃ log, queryComponent lib name hint w = .ok answer ⟨w.index, log⟩ := by
  obtain ⟨log, hquery⟩ := setting_ready hready
    (fun index => index.answerComponent lib.settings name hint.text?) .info
    ("Querying component: " ++ name ++ " (category: " ++ hint.label ++ ")")
  rw [h] at hquery
  exact ⟨log, hquery⟩

/-- A ready index answers every question for a component, and leaves everything as it is: it finds a
component exactly if one can be meant, and else makes its suggestions. -/
theorem queryComponent_answers {lib : Library} {w : Workspace} (hready : w.index.ready = true)
    (haccept : lib.settings.acceptThreshold = .ok accept)
    (hthreshold : lib.settings.suggestionThreshold = .ok threshold)
    (hmax : lib.settings.maxSuggestions = .ok limit) (hlimit : 0 ≤ limit)
    (hnumber : accept.isNaN = false) (hnumber' : threshold.isNaN = false) (name : Text)
    (hint : CategoryHint) :
    ∃ answer log, queryComponent lib name hint w = .ok answer ⟨w.index, log⟩ ∧
      (answer.isFound = true ↔ Findable w.index name hint.text? accept) ∧
      (∀ c, answer = .found c → Meant w.index name hint.text? accept c) ∧
      ∀ asked category suggestions, answer = .missing asked category suggestions →
        asked = name ∧ category = hint.text? ∧ Suggests w.index name accept threshold limit suggestions := by
  obtain ⟨found, hfound, hmeant, hmissing⟩ := findComponent?_spec w.index name hint.text? haccept hnumber
  cases found with
  | some c =>
      have hanswer : w.index.answerComponent lib.settings name hint.text? = .ok (.found c) := by
        rw [Index.answerComponent, hfound]
        rfl
      obtain ⟨log, hquery⟩ := queryComponent_ready hready hanswer
      refine ⟨.found c, log, hquery, ?_, ?_, by simp⟩
      · exact ⟨fun _ => (hmeant c rfl).findable, fun _ => rfl⟩
      · rintro _ ⟨⟩
        exact hmeant c rfl
  | none =>
      have hanswer : w.index.answerComponent lib.settings name hint.text? =
          .ok (.missing name hint.text? (rank name w.index.componentCandidates threshold limit)) := by
        rw [Index.answerComponent, hfound, suggest, hthreshold, hmax]
        rfl
      obtain ⟨log, hquery⟩ := queryComponent_ready hready hanswer
      refine ⟨_, log, hquery, ?_, by simp, ?_⟩
      · simp [ComponentAnswer.isFound, hmissing rfl]
      · rintro _ _ _ ⟨⟩
        exact ⟨rfl, rfl, rank_suggests hnumber' hlimit (hmissing rfl)⟩

/-- A ready index of two components. -/
def avatars : Workspace where
  index := {
    components := (({} : OrderedMap Text ComponentRecord).insert "yb-avatar"
      { name := "yb-avatar", category := "src/people", filePath := "yb-avatar.vue" }).insert "yb-avatar-group"
      { name := "yb-avatar-group", category := "src/people", filePath := "yb-avatar-group.vue" }
    ready := true }

/-- A library without files and with the built-in settings. -/
def avatarLibrary : Library where
  root := ⟨[]⟩
  files := ({} : MemoryFiles).fileSystem
  settings := Settings.ofBase ⟨[]⟩

theorem queryComponent_answers_avatars :
    ∃ answer log, queryComponent avatarLibrary "yb-vtr" (.given "people") avatars =
        .ok answer ⟨avatars.index, log⟩ ∧
      (answer.isFound = true ↔
        Findable avatars.index "yb-vtr" (some "people") ⟨false, 0x3fe0000000000000⟩) ∧
      (∀ c, answer = .found c →
        Meant avatars.index "yb-vtr" (some "people") ⟨false, 0x3fe0000000000000⟩ c) ∧
      ∀ asked category suggestions, answer = .missing asked category suggestions →
        asked = "yb-vtr".toList ∧ category = some "people".toList ∧
          Suggests avatars.index "yb-vtr" ⟨false, 0x3fe0000000000000⟩ ⟨false, 0x3fd3333333333333⟩ 5
            suggestions := by
  have hready : avatars.index.ready = true := rfl
  have haccept : avatarLibrary.settings.acceptThreshold = .ok ⟨false, 0x3fe0000000000000⟩ := by
    decide +kernel
  have hthreshold : avatarLibrary.settings.suggestionThreshold = .ok ⟨false, 0x3fd3333333333333⟩ := by
    decide +kernel
  have hmax : avatarLibrary.settings.maxSuggestions = .ok 5 := by decide +kernel
  have haccepted : Double.isNaN ⟨false, 0x3fe0000000000000⟩ = false := by decide
  have hsuggested : Double.isNaN ⟨false, 0x3fd3333333333333⟩ = false := by decide
  have hhint : CategoryHint.text? (.given "people") = some "people".toList := rfl
  have hanswers := queryComponent_answers hready haccept hthreshold hmax (by decide) haccepted hsuggested
    "yb-vtr" (.given "people")
  rw [hhint] at hanswers
  exact hanswers

end ComponentCatalog
