import ComponentCatalog.Proofs.ComponentLookup
import ComponentCatalog.Proofs.Results
import ComponentCatalog.Proofs.SmallLetters
import ComponentCatalog.Query.Practices
import Mathlib.Data.List.Forall2

/-!
# What is quoted on a topic

A topic of one line is mentioned by a documentation exactly if it is mentioned by one of its lines, so that
every documentation that is quoted has an excerpt. The quotations, the references and the samples of an
answer are all in the order of the index.
-/

namespace ComponentCatalog

open Work

variable {topic t excerpted : Text} {index : Index} {settings : Settings}

/-! ## Mentions and excerpts -/

/-- A text contains a topic, regardless of case. -/
def Mentions (topic t : Text) : Prop := topic.lower <:+: t.lower

theorem mentions_iff : mentions t topic = true ↔ Mentions topic t := Text.includes_iff

instance : Decidable (Mentions topic t) := decidable_of_iff _ mentions_iff

theorem mentions_iff_exists_line (hline : '\n' ∉ topic) :
    Mentions topic t ↔ ∃ line ∈ t.pieces '\n', Mentions topic line := by
  have hlower : '\n' ∉ topic.lower := fun hmem => hline (Text.mem_of_mem_lower hmem (by decide))
  unfold Mentions
  rw [Text.infix_iff_exists_piece hlower, Text.pieces_lower]
  simp

theorem not_mentions_nil (hne : topic ≠ []) : ¬ Mentions topic [] := fun h =>
  Text.lowerAfter_ne_nil hne false (List.infix_nil.1 h)

theorem Mentions.visible (h : Mentions topic t) (hvisible : ∃ c ∈ topic, isBlank c = false) :
    ∃ c ∈ t, isBlank c = false := by
  obtain ⟨c, hc, hseen⟩ := Text.exists_visible_lower.2 hvisible
  exact Text.exists_visible_lower.1 ⟨c, h.subset hc, hseen⟩

/-- At most five lines, trimmed: the first one that mentions the topic and those behind it. -/
def IsExcerpt (topic t excerpted : Text) : Prop :=
  ∃ before line after, t.pieces '\n' = before ++ line :: after ∧ Mentions topic line ∧
    (∀ l ∈ before, ¬ Mentions topic l) ∧ excerpted = Text.trim (Text.join ['\n'] ((line :: after).take 5))

theorem excerpt_isExcerpt (hline : '\n' ∉ topic) (h : Mentions topic t) : IsExcerpt topic t (excerpt t topic) := by
  -- That the whole text mentions the topic leads to some line that does, and the search finds the first one.
  obtain ⟨line, hmem, hmentions⟩ := (mentions_iff_exists_line hline).1 h
  have hsome : ((t.pieces '\n').find? fun l => mentions l topic).isSome :=
    List.find?_isSome.2 ⟨line, hmem, mentions_iff.2 hmentions⟩
  obtain ⟨first, hfind⟩ := Option.isSome_iff_exists.1 hsome
  obtain ⟨hfirst, before, after, hsplit, hbefore⟩ := List.find?_eq_some_iff_append.1 hfind
  refine ⟨before, first, after, hsplit, mentions_iff.1 hfirst, fun l hl hmentions => ?_, ?_⟩
  · simpa [mentions_iff.2 hmentions] using hbefore l hl
  · unfold excerpt
    rw [hsplit, List.dropWhile_append_of_pos hbefore, List.dropWhile_cons_of_neg (by simp [hfirst])]
    rfl

theorem IsExcerpt.ne_nil (h : IsExcerpt topic t excerpted) (hvisible : ∃ c ∈ topic, isBlank c = false) :
    excerpted ≠ [] := by
  obtain ⟨before, line, after, -, hmentions, -, rfl⟩ := h
  obtain ⟨c, hc, hseen⟩ := hmentions.visible hvisible
  intro hnil
  have hblank := Text.trim_eq_nil_iff.1 hnil c (Text.mem_join_of_mem List.mem_cons_self hc)
  rw [hseen] at hblank
  cases hblank

/-! ## Documentations -/

/-- A documentation, what it belongs to, and the samples in it. -/
structure Documentation where
  source : PracticeSource
  text : Text
  examples : List CodeSample

namespace Documentation

/-- What is documented of a component. -/
def ofComponent (e : Text × ComponentRecord) : Documentation :=
  ⟨.component e.1 e.2.category, e.2.documentation, e.2.examples⟩

/-- What is documented of the utilities as a whole. -/
def ofUtilities (doc : KindDocumentation) : Documentation := ⟨.utilities, doc.documentation, doc.examples⟩

/-- What is documented of a plugin. -/
def ofPlugin (e : Text × PluginRecord) : Documentation := ⟨.plugin e.1, e.2.documentation, e.2.examples⟩

end Documentation

/-- The documentations that can be quoted, in the order of the index. -/
def Index.documentations (index : Index) : List Documentation :=
  index.components.entries.map .ofComponent ++ index.utilitiesDoc.toList.map .ofUtilities ++
    index.plugins.entries.map .ofPlugin

/-- Those of some documentations that mention a topic, in their order. -/
def mentioning (topic : Text) (ds : List Documentation) : List Documentation :=
  ds.filter fun d => Mentions topic d.text

/-- A documentation as it is quoted. -/
structure QuotedAs (topic : Text) (d : Documentation) (h : Hit) : Prop where
  source : h.source = d.source
  examples : h.examples = d.examples
  excerpt : IsExcerpt topic d.text h.excerpt
  named : ∀ name ∈ h.source.name?, h.referenceName = name

/-- A documentation that mentions the topic is quoted, and no other one. -/
inductive QuotedIfMentioned (topic : Text) (d : Documentation) : Option Hit → Prop
  | quoted {h : Hit} (mentions : Mentions topic d.text) (quoted : QuotedAs topic d h) :
      QuotedIfMentioned topic d (some h)
  | unmentioned (h : ¬ Mentions topic d.text) : QuotedIfMentioned topic d none

theorem hit?_quotes (hline : '\n' ∉ topic) (d : Documentation) {name : Text} (hname : ∀ n ∈ d.source.name?, name = n)
    (path : Text) : QuotedIfMentioned topic d (hit? topic d.text d.source d.examples name path) := by
  unfold hit?
  split
  · next hmentions =>
      have hmentions := mentions_iff.1 hmentions
      exact .quoted hmentions ⟨rfl, rfl, excerpt_isExcerpt hline hmentions, hname⟩
  · next hmentions => exact .unmentioned (mt mentions_iff.2 hmentions)

/-- An empty documentation mentions nothing, so that it need not be left out. -/
theorem ite_isEmpty_quotes (hne : topic ≠ []) {d : Documentation} {quoted : Option Hit}
    (h : QuotedIfMentioned topic d quoted) : QuotedIfMentioned topic d (if d.text.isEmpty then none else quoted) := by
  split
  · next hempty => exact .unmentioned (List.isEmpty_iff.1 hempty ▸ not_mentions_nil hne)
  · exact h

theorem mentioning_append (topic : Text) (ds es : List Documentation) :
    mentioning topic (ds ++ es) = mentioning topic ds ++ mentioning topic es :=
  List.filter_append ..

theorem QuotedIfMentioned.forall₂ {d : Documentation} {quoted : Option Hit} (h : QuotedIfMentioned topic d quoted) :
    List.Forall₂ (QuotedAs topic) (mentioning topic [d]) quoted.toList := by
  cases h with
  | quoted hmentions hquoted =>
      rw [mentioning, List.filter_cons_of_pos (by simpa using hmentions)]
      exact .cons hquoted .nil
  | unmentioned hmentions =>
      rw [mentioning, List.filter_cons_of_neg (by simpa using hmentions)]
      exact .nil

/-- What is quoted of a list of documentations are those that mention the topic, in order. -/
theorem forall₂_filterMap {α : Type} {documentation : α → Documentation} {quote : α → Option Hit}
    (h : ∀ x, QuotedIfMentioned topic (documentation x) (quote x)) (xs : List α) :
    List.Forall₂ (QuotedAs topic) (mentioning topic (xs.map documentation)) (xs.filterMap quote) := by
  induction xs with
  | nil => exact .nil
  | cons x xs ih =>
      rw [List.map_cons, ← List.singleton_append, mentioning_append, List.filterMap_eq_flatMap_toList,
        List.flatMap_cons, ← List.filterMap_eq_flatMap_toList]
      exact List.rel_append (h x).forall₂ ih

section

variable (hline : '\n' ∉ topic)
include hline

theorem componentHits_quote (hne : topic ≠ []) (index : Index) :
    List.Forall₂ (QuotedAs topic) (mentioning topic (index.components.entries.map .ofComponent))
      (index.componentHits topic) :=
  forall₂_filterMap (fun e => ite_isEmpty_quotes hne
    (hit?_quotes hline (.ofComponent e) (fun _ hn => Option.some.inj hn) e.2.filePath)) _

theorem pluginHits_quote (hne : topic ≠ []) (index : Index) :
    List.Forall₂ (QuotedAs topic) (mentioning topic (index.plugins.entries.map .ofPlugin))
      (index.pluginHits topic) :=
  forall₂_filterMap (fun e => ite_isEmpty_quotes hne
    (hit?_quotes hline (.ofPlugin e) (fun _ hn => Option.some.inj hn) e.2.dirPath)) _

theorem utilityHits_quote {root : Path} {hits : List Hit} (h : index.utilityHits topic root settings = .ok hits) :
    List.Forall₂ (QuotedAs topic) (mentioning topic (index.utilitiesDoc.toList.map .ofUtilities)) hits := by
  -- The directory is read only to quote the documentation, and what is quoted does not depend on it.
  unfold Index.utilityHits at h
  cases hdoc : index.utilitiesDoc with
  | none =>
      simp only [hdoc] at h
      cases h
      exact .nil
  | some doc =>
      simp only [hdoc] at h
      split at h
      · obtain ⟨dir, -, h⟩ := exists_of_bind_ok h
        cases h
        exact (hit?_quotes hline (.ofUtilities doc) nofun _).forall₂
      · next hmentions =>
          cases h
          have hnone : QuotedIfMentioned topic (.ofUtilities doc) none := .unmentioned (mt mentions_iff.2 hmentions)
          exact hnone.forall₂

theorem answerPractices_eq_ok {root : Path} {answer : PracticeAnswer} (hne : topic ≠ [])
    (h : index.answerPractices root settings topic = .ok answer) :
    List.Forall₂ (QuotedAs topic) (mentioning topic index.documentations) answer.hits := by
  obtain ⟨utilities, hutilities, h⟩ := exists_of_bind_ok h
  obtain ⟨root, -, h⟩ := exists_of_bind_ok h
  cases h
  rw [Index.documentations, mentioning_append, mentioning_append]
  exact List.rel_append (List.rel_append (componentHits_quote hline hne index) (utilityHits_quote hline hutilities))
    (pluginHits_quote hline hne index)

end

theorem utilityHits_eq_error {root : Path} {e : SettingError}
    (h : index.utilityHits topic root settings = .error e) :
    settings.utilsDir = .error e ∧ ∃ doc, index.utilitiesDoc = some doc ∧ Mentions topic doc.documentation := by
  unfold Index.utilityHits at h
  split at h
  · cases h
  · next doc hdoc =>
      split at h
      · next hmentions =>
          rcases bind_eq_error h with hdir | ⟨dir, -, h⟩
          · exact ⟨hdir, doc, hdoc, mentions_iff.1 hmentions⟩
          · cases h
      · cases h

theorem answerPractices_eq_error {root : Path} {e : SettingError}
    (h : index.answerPractices root settings topic = .error e) :
    settings.importPrefix = .error e ∨
      settings.utilsDir = .error e ∧ ∃ doc, index.utilitiesDoc = some doc ∧ Mentions topic doc.documentation := by
  rcases bind_eq_error h with hutilities | ⟨utilities, -, h⟩
  · exact .inr (utilityHits_eq_error hutilities)
  · rcases bind_eq_error h with hfault | ⟨importPrefix, -, h⟩
    · exact .inl hfault
    · cases h

/-! ## Answers -/

/-- Is a practice quoted, and no general advice? -/
def isQuotation (practice : Json) : Bool :=
  match practice.field? "type" with
  | some (.str kind) => kind != "general".toList
  | _ => true

/-- The samples that are given with a practice. -/
def samples (practice : Json) : List Json :=
  match practice.field? "examples" with
  | some (.arr examples) => examples
  | _ => []

/-- A practice quotes a documentation; if there is anything to be seen in the topic, so there is in the
excerpt. -/
structure Quotes (topic : Text) (d : Documentation) (practice : Json) : Prop where
  kind : practice.field? "type" = some (.str d.source.kind)
  name : practice.field? "name" = d.source.name?.map .str
  examples : practice.field? "examples" = some (.arr (d.examples.map CodeSample.toJson))
  excerpt : ∃ excerpted, practice.field? "practice" = some (.str excerpted) ∧ IsExcerpt topic d.text excerpted ∧
    ((∃ c ∈ topic, isBlank c = false) → excerpted ≠ [])

/-- A practice and a reference are about the same resource. -/
structure SameResource (practice reference : Json) : Prop where
  kind : reference.field? "type" = practice.field? "type"
  name : ∀ name, practice.field? "name" = some name → reference.field? "name" = some name

/-- The practices, references and samples of an answer are those of the documentations that mention the topic,
one by one and in order. -/
structure Consistent (index : Index) (topic : Text) (practices references examples : List Json) : Prop where
  quotes : List.Forall₂ (Quotes topic) (mentioning topic index.documentations) (practices.filter isQuotation)
  references : List.Forall₂ SameResource (practices.filter isQuotation) references
  examples : examples = (practices.filter isQuotation).flatMap samples

namespace Hit

variable (h : Hit)

theorem field?_type : h.toJson.field? "type" = some (.str h.source.kind) := by
  obtain ⟨source, _⟩ := h
  cases source <;> rfl

theorem field?_name : h.toJson.field? "name" = h.source.name?.map .str := by
  obtain ⟨source, _⟩ := h
  cases source <;> rfl

theorem field?_practice : h.toJson.field? "practice" = some (.str h.excerpt) := by
  obtain ⟨source, _⟩ := h
  cases source <;> rfl

theorem field?_examples : h.toJson.field? "examples" = some (.arr (h.examples.map CodeSample.toJson)) := by
  obtain ⟨source, _⟩ := h
  cases source <;> rfl

theorem isQuotation_toJson : isQuotation h.toJson = true := by
  rw [isQuotation, field?_type]
  cases h.source <;> rfl

theorem samples_toJson : samples h.toJson = h.examples.map CodeSample.toJson := by
  rw [samples, field?_examples]

theorem sameResource_reference (hnamed : ∀ name ∈ h.source.name?, h.referenceName = name) :
    SameResource h.toJson h.reference where
  kind := h.field?_type.symm
  name field hfield := by
    rw [field?_name] at hfield
    obtain ⟨name, hname, rfl⟩ := Option.map_eq_some_iff.1 hfield
    rw [← hnamed name hname]
    rfl

end Hit

theorem QuotedAs.quotes {d : Documentation} {h : Hit} (hquoted : QuotedAs topic d h) : Quotes topic d h.toJson where
  kind := hquoted.source ▸ h.field?_type
  name := hquoted.source ▸ h.field?_name
  examples := hquoted.examples ▸ h.field?_examples
  excerpt := ⟨h.excerpt, h.field?_practice, hquoted.excerpt, hquoted.excerpt.ne_nil⟩

theorem filter_isQuotation (hits : List Hit) (advice : List Advice) :
    (hits.map Hit.toJson ++ advice.map Advice.toJson).filter isQuotation = hits.map Hit.toJson := by
  have hquoted : (hits.map Hit.toJson).filter isQuotation = hits.map Hit.toJson :=
    List.filter_eq_self.2 (List.forall_mem_map.2 fun h _ => h.isQuotation_toJson)
  have hgeneral : (advice.map Advice.toJson).filter isQuotation = [] :=
    List.filter_eq_nil_iff.2 (List.forall_mem_map.2 fun _ _ => Bool.false_ne_true)
  rw [List.filter_append, hquoted, hgeneral, List.append_nil]

theorem answer_consistent {answer : PracticeAnswer}
    (hquoted : List.Forall₂ (QuotedAs topic) (mentioning topic index.documentations) answer.hits) :
    Consistent index topic (answer.hits.map Hit.toJson ++ answer.advice.map Advice.toJson)
      (answer.hits.map Hit.reference) ((answer.hits.flatMap (·.examples)).map CodeSample.toJson) := by
  have hflip : List.Forall₂ (flip (QuotedAs topic)) answer.hits _ := hquoted.flip
  have hnamed : ∀ h ∈ answer.hits, ∀ name ∈ h.source.name?, h.referenceName = name :=
    ((List.forall₂_and_left _ _).1 (hflip.imp fun _ _ h => ⟨h.named, h⟩)).1
  constructor
  case quotes =>
    rw [filter_isQuotation, List.forall₂_map_right_iff]
    exact hquoted.imp fun _ _ h => h.quotes
  case references =>
    rw [filter_isQuotation, List.forall₂_map_left_iff, List.forall₂_map_right_iff, List.forall₂_same]
    exact fun h hmem => h.sameResource_reference (hnamed h hmem)
  case examples =>
    rw [filter_isQuotation, List.map_flatMap, List.flatMap_map]
    exact List.flatMap_congr fun h _ => h.samples_toJson.symm

/-- A ready index answers every question on a topic of one line, and leaves everything as it is: its answer
quotes the documentations that mention the topic. Only where it cannot be read where to import from, or where
the utilities lie whose documentation is quoted, does it fail. -/
theorem queryPractices_consistent (lib : Library) {w : Workspace} (hready : w.index.ready = true) (hne : topic ≠ [])
    (hline : '\n' ∉ topic) :
    (∃ answer log practices references examples, queryPractices lib topic w = .ok answer ⟨w.index, log⟩ ∧
      answer.toJson.field? "practices" = some (.arr practices) ∧
      answer.toJson.field? "references" = some (.arr references) ∧
      answer.toJson.field? "examples" = some (.arr examples) ∧
      Consistent w.index topic practices references examples) ∨
    ∃ e log, queryPractices lib topic w = .error (.setting e) ⟨w.index, log⟩ ∧
      (lib.settings.importPrefix = .error e ∨ lib.settings.utilsDir = .error e ∧
        ∃ doc, w.index.utilitiesDoc = some doc ∧ Mentions topic doc.documentation) := by
  obtain ⟨log, hquery⟩ : ∃ log, queryPractices lib topic w = _ := setting_ready hready
    (fun index => index.answerPractices lib.root lib.settings topic) .info ("Getting best practices for: " ++ topic)
  cases hanswer : w.index.answerPractices lib.root lib.settings topic with
  | ok answer =>
      rw [hanswer] at hquery
      have hquoted := answerPractices_eq_ok hline hne hanswer
      exact .inl ⟨answer, log, _, _, _, hquery, rfl, rfl, rfl, answer_consistent hquoted⟩
  | error e =>
      rw [hanswer] at hquery
      exact .inr ⟨e, log, hquery, answerPractices_eq_error hanswer⟩

/-- A ready index of two components, the documentation of the utilities, and a plugin. -/
def manuals : Workspace where
  index := {
    components := (({} : OrderedMap Text ComponentRecord).insert "yb-avatar"
      { name := "yb-avatar", category := "people", filePath := "yb-avatar.vue"
        documentation := "Avatars.\n\nIMPORT one of them." }).insert "yb-card"
      { name := "yb-card", category := "pages", filePath := "yb-card.vue" }
    utilitiesDoc := some ⟨"utils", "What to import:\n\nall of them.", [⟨"js", "import utils;"⟩]⟩
    plugins := ({} : OrderedMap Text PluginRecord).insert "toast"
      { name := "toast", dirPath := "toast", documentation := "Raises toasts." }
    ready := true }

theorem queryPractices_consistent_manuals :
    manuals.index.ready = true ∧ "Import".toList ≠ [] ∧ '\n' ∉ "Import".toList ∧
    ∃ answer log practices references examples,
      queryPractices avatarLibrary "Import" manuals = .ok answer ⟨manuals.index, log⟩ ∧
      answer.toJson.field? "practices" = some (.arr practices) ∧
      answer.toJson.field? "references" = some (.arr references) ∧
      answer.toJson.field? "examples" = some (.arr examples) ∧
      Consistent manuals.index "Import" practices references examples := by
  have himport : avatarLibrary.settings.importPrefix = .ok "@shared".toList := by decide +kernel
  have hutils : avatarLibrary.settings.utilsDir = .ok "src/scripts/utils".toList := by decide +kernel
  have hne : "Import".toList ≠ [] := by decide
  have hline : '\n' ∉ "Import".toList := by decide
  refine ⟨rfl, hne, hline, ?_⟩
  rcases queryPractices_consistent avatarLibrary (w := manuals) rfl hne hline with
    hanswer | ⟨e, log, -, hfault | ⟨hdir, -⟩⟩
  · exact hanswer
  · rw [himport] at hfault
    cases hfault
  · rw [hutils] at hdir
    cases hdir

example : (mentioning "Import" manuals.index.documentations).map (·.source) =
    [.component "yb-avatar" "people", .utilities] := by decide +kernel

end ComponentCatalog
