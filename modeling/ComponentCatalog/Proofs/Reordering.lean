import ComponentCatalog.Proofs.Attachment
import ComponentCatalog.Proofs.ComponentIndex
import ComponentCatalog.Proofs.Listing

/-!
# The order of listings

Two file systems that differ only in the order in which directories list their entries have the same
components, as long as no two component files share a key. A documentation stands at the end of its
directory wherever it is listed, and no other directory of the walk is of the same category.
-/

namespace ComponentCatalog

open Work

variable {files files' : FileSystem} {root dir : Path} {l : Layout} {configured k : Text}
variable {below : List Text} {entries : List Entry}

/-! ## Categories -/

namespace Scan

/-- Directories below a configured one have different categories. -/
theorem category_injective {below below' : List Text} (h : ∀ name ∈ below, '/' ∉ name)
    (h' : ∀ name ∈ below', '/' ∉ name) (heq : category configured below = category configured below') :
    below = below' := by
  unfold category at heq
  by_cases hb : below = []
  · by_cases hb' : below' = []
    · rw [hb, hb']
    · have hlen := congrArg List.length heq
      rw [hb, Text.join_cons _ _ hb'] at hlen
      simp [Text.join] at hlen
  · by_cases hb' : below' = []
    · have hlen := congrArg List.length heq
      rw [hb', Text.join_cons _ _ hb] at hlen
      simp [Text.join] at hlen
    · rw [Text.join_cons _ _ hb, Text.join_cons _ _ hb', List.append_assoc, List.append_assoc,
        List.append_cancel_left_eq, List.append_cancel_left_eq] at heq
      rw [← Text.pieces_join hb h, ← Text.pieces_join hb' h', heq]

end Scan

/-! ## The edits of one walk -/

/-- The edits of a walk that has come to `dir` by the names `below`. -/
def walkEdits (files : FileSystem) (l : Layout) (configured : Text) (dir : Path) (below : List Text) :
    List Edit :=
  (files.walkFrom dir below).flatMap (Visit.componentEdits files l configured)

/-- The edits that come of an entry of `dir`. -/
def entryEdits (files : FileSystem) (l : Layout) (configured : Text) (dir : Path) (below : List Text)
    (entry : Entry) : List Edit :=
  if entry.isDirectory then walkEdits files l configured (dir.child entry.name) (below ++ [entry.name])
  else (Visit.file dir below entry.name).componentEdits files l configured

theorem walkEdits_unlisted {e : FileError} (h : files.list dir = .error e) :
    walkEdits files l configured dir below = [] := by
  rw [walkEdits, FileSystem.walk_unlisted h]
  rfl

theorem walkEdits_listed (h : files.list dir = .ok entries) :
    walkEdits files l configured dir below =
      entries.flatMap (entryEdits files l configured dir below) ++
        (Visit.leave dir below entries).componentEdits files l configured := by
  rw [walkEdits, FileSystem.walk_listed h]
  simp only [List.cons_append, List.flatMap_cons, List.flatMap_append, List.flatMap_assoc, List.flatMap_nil,
    List.append_nil]
  refine congrArg (· ++ _) (List.flatMap_congr fun entry _ => ?_)
  unfold entryEdits
  cases entry.isDirectory with
  | false => simp
  | true => rfl

theorem category?_of_mem_file {name : Text} {e : Edit}
    (he : e ∈ (Visit.file dir below name).componentEdits files l configured) :
    e.category? = some (Scan.category configured below) ∧ ∀ category, e.sectionsOf? category = none := by
  simp only [Visit.componentEdits, Visit.componentFile?] at he
  split at he
  · cases hr : (files.read (dir.child name)).toOption with
    | none =>
        rw [hr] at he
        cases he
    | some source =>
        rw [hr] at he
        obtain rfl := List.mem_singleton.1 he
        exact ⟨rfl, fun _ => rfl⟩
  · cases he

theorem category?_of_mem_leave {e : Edit}
    (he : e ∈ (Visit.leave dir below entries).componentEdits files l configured) :
    e.category? = some (Scan.category configured below) := by
  simp only [Visit.componentEdits] at he
  split at he
  · split at he
    · rw [List.mem_singleton.1 he]
      rfl
    · cases he
  · cases he

/-- An edit of a walk is about the directory to which the walk has come, or about one below it. -/
theorem category?_of_mem_walkEdits (hw : files.WellNamed) (hbelow : ∀ name ∈ below, '/' ∉ name) {e : Edit}
    (he : e ∈ walkEdits files l configured dir below) :
    ∃ names, below <+: names ∧ (∀ name ∈ names, '/' ∉ name) ∧
      e.category? = some (Scan.category configured names) := by
  induction dir, below using files.walk_induction with
  | unlisted dir below error hl =>
      rw [walkEdits_unlisted hl] at he
      cases he
  | listed dir below entries hl ih =>
      rw [walkEdits_listed hl, List.mem_append, List.mem_flatMap] at he
      rcases he with ⟨entry, hentry, he⟩ | he
      · unfold entryEdits at he
        split at he
        · next hd =>
            obtain ⟨names, hnames, hplain, hcat⟩ := ih entry hentry hd (hw.plain_child hbelow hl hentry) he
            exact ⟨names, (List.prefix_append _ _).trans hnames, hplain, hcat⟩
        · exact ⟨below, List.prefix_refl _, hbelow, (category?_of_mem_file he).1⟩
      · exact ⟨below, List.prefix_refl _, hbelow, category?_of_mem_leave he⟩

theorem category?_of_mem_entryEdits (hw : files.WellNamed) (hbelow : ∀ name ∈ below, '/' ∉ name)
    (hl : files.list dir = .ok entries) {entry : Entry} (hentry : entry ∈ entries) {e : Edit}
    (he : e ∈ entryEdits files l configured dir below entry) :
    ∃ names, (∀ name ∈ names, '/' ∉ name) ∧ e.category? = some (Scan.category configured names) ∧
      (below ++ [entry.name] <+: names ∨ names = below ∧ ∀ category, e.sectionsOf? category = none) := by
  unfold entryEdits at he
  split at he
  · obtain ⟨names, hnames, hplain, hcat⟩ :=
      category?_of_mem_walkEdits hw (hw.plain_child hbelow hl hentry) he
    exact ⟨names, hplain, hcat, .inl hnames⟩
  · obtain ⟨hcat, hnone⟩ := category?_of_mem_file he
    exact ⟨below, hbelow, hcat, .inr ⟨rfl, hnone⟩⟩

/-- What is attached to a directory in `dir` is attached to nothing else that comes of `dir`. -/
theorem closes_entryEdits (hw : files.WellNamed) (hbelow : ∀ name ∈ below, '/' ∉ name)
    (hl : files.list dir = .ok entries) {entry : Entry} (hentry : entry ∈ entries) {now later : Edit}
    (hnow : now ∈ entryEdits files l configured dir below entry) {names : List Text}
    (hnames : ¬ below ++ [entry.name] <+: names) (hplain : ∀ name ∈ names, '/' ∉ name)
    (hlater : later.category? = some (Scan.category configured names)) : now.Closes later := by
  cases now with
  | attach category sections =>
      obtain ⟨names', hplain', hcat, hplace⟩ := category?_of_mem_entryEdits hw hbelow hl hentry hnow
      intro heq
      have hsame : Scan.category configured names' = Scan.category configured names :=
        Option.some.inj (hcat.symm.trans (heq.symm.trans hlater))
      rw [Scan.category_injective hplain' hplain hsame] at hplace
      rcases hplace with hplace | ⟨-, hnone⟩
      · exact hnames hplace
      · simpa [Edit.sectionsOf?] using hnone category
  | _ => trivial

theorem settled_file {name : Text} :
    Settled ((Visit.file dir below name).componentEdits files l configured) := by
  refine List.pairwise_of_forall_mem_list fun now hnow later _ => ?_
  cases now with
  | attach category sections => simpa [Edit.sectionsOf?] using (category?_of_mem_file hnow).2 category
  | _ => trivial

theorem settled_leave : Settled ((Visit.leave dir below entries).componentEdits files l configured) := by
  simp only [Visit.componentEdits]
  split
  · split
    · exact List.pairwise_singleton ..
    · exact List.Pairwise.nil
  · exact List.Pairwise.nil

/-- A walk is done with a category when it documents it. -/
theorem settled_walkEdits (hw : files.WellNamed) (hbelow : ∀ name ∈ below, '/' ∉ name) :
    Settled (walkEdits files l configured dir below) := by
  induction dir, below using files.walk_induction with
  | unlisted dir below error hl =>
      rw [walkEdits_unlisted hl]
      exact List.Pairwise.nil
  | listed dir below entries hl ih =>
      rw [walkEdits_listed hl, Settled, List.pairwise_append, List.pairwise_flatMap]
      refine ⟨⟨?_, ?_⟩, settled_leave, ?_⟩
      · intro entry hentry
        unfold entryEdits
        split
        · next hd => exact ih entry hentry hd (hw.plain_child hbelow hl hentry)
        · exact settled_file
      -- Two entries have different names, and so have the directories that their edits are about.
      · have hnodup : entries.Pairwise fun a b => a.name ≠ b.name := List.pairwise_map.1 (hw.nodup hl)
        refine hnodup.imp_of_mem fun hentry hentry' hne now hnow later hlater => ?_
        obtain ⟨names, hplain, hcat, hplace⟩ := category?_of_mem_entryEdits hw hbelow hl hentry' hlater
        refine closes_entryEdits hw hbelow hl hentry hnow (fun hprefix => ?_) hplain hcat
        rcases hplace with hplace | ⟨rfl, -⟩
        · have hsame := List.prefix_of_prefix_length_le hprefix hplace (by simp)
          exact hne (by simpa using hsame.eq_of_length (by simp))
        · exact absurd hprefix.length_le (by simp)
      · intro now hnow later hlater
        obtain ⟨entry, hentry, hnow⟩ := List.mem_flatMap.1 hnow
        refine closes_entryEdits hw hbelow hl hentry hnow (fun hprefix => ?_) hbelow
          (category?_of_mem_leave hlater)
        exact absurd hprefix.length_le (by simp)

/-! ## Two walks -/

theorem FileSystem.Reorders.walkEdits_perm (h : files.Reorders files') :
    (walkEdits files l configured dir below).Perm (walkEdits files' l configured dir below) := by
  induction dir, below using files.walk_induction with
  | unlisted dir below error hl =>
      rw [walkEdits_unlisted hl, walkEdits_unlisted (h.unlisted hl)]
  | listed dir below entries hl ih =>
      obtain ⟨entries', hl', hperm⟩ := h.listed hl
      rw [walkEdits_listed hl, walkEdits_listed hl']
      have hentry : ∀ entry ∈ entries, (entryEdits files l configured dir below entry).Perm
          (entryEdits files' l configured dir below entry) := by
        intro entry hmem
        unfold entryEdits
        split
        · next hd => exact ih entry hmem hd
        · simp only [Visit.componentEdits, Visit.componentFile?, h.read]
          exact .refl _
      have hleave : (Visit.leave dir below entries).componentEdits files l configured =
          (Visit.leave dir below entries').componentEdits files' l configured := by
        have hreadme : l.hasReadme entries = l.hasReadme entries' := hperm.any_eq
        simp only [Visit.componentEdits, hreadme, h.read]
      rw [hleave]
      exact (hperm.flatMap hentry).append_right _

theorem mem_componentFiles_of_mem_walkEdits {k category source : Text} {p : Path}
    (hc : configured ∈ l.componentDirs)
    (he : .component k category p source ∈ walkEdits files l configured (root.join configured) []) :
    ∃ f ∈ componentFiles files root l, f.configured = configured ∧
      f.edit l = .component k category p source := by
  obtain ⟨v, hv, he⟩ := List.mem_flatMap.1 he
  cases v with
  | leave dir below entries =>
      simp only [Visit.componentEdits] at he
      split at he
      · split at he <;> simp at he
      · cases he
  | file dir below name =>
      simp only [Visit.componentEdits] at he
      obtain ⟨f, hf, hedit⟩ := by simpa using he
      refine ⟨f, List.mem_flatMap.2 ⟨configured, hc, List.mem_filterMap.2 ⟨_, hv, hf⟩⟩, ?_, hedit⟩
      simp only [Visit.componentFile?] at hf
      split at hf
      · obtain ⟨source, -, rfl⟩ := Option.map_eq_some_iff.1 hf
        rfl
      · cases hf
  | _ => simp [Visit.componentEdits, Visit.componentFile?] at he

/-- One walk meets a path once. -/
theorem eq_of_path_eq {f g : ComponentFile} (hf : f ∈ componentFiles files root l)
    (hg : g ∈ componentFiles files root l) (hc : f.configured = g.configured) (hp : f.path = g.path) :
    f = g := by
  obtain ⟨-, hleads, -, -, hread⟩ := mem_componentFiles.1 hf
  obtain ⟨-, hleads', -, -, hread'⟩ := mem_componentFiles.1 hg
  have hparts := congrArg Path.parts hp
  simp only [ComponentFile.path, Path.child, hleads.parts, hleads'.parts, hc, List.append_assoc,
    List.append_cancel_left_eq] at hparts
  obtain ⟨hbelow, hname⟩ := List.append_inj' hparts rfl
  have hdir : f.dir = g.dir := by
    have hdirs : f.dir.parts = g.dir.parts := by rw [hleads.parts, hleads'.parts, hc, hbelow]
    exact congrArg Path.mk hdirs
  have hsource : f.source = g.source := by
    rw [hp, hread'] at hread
    exact (Except.ok.inj hread).symm
  cases f
  cases g
  simp_all

theorem walkEdits_sets_unique (hc : configured ∈ l.componentDirs)
    (hkeys : ∀ f ∈ componentFiles files root l, ∀ g ∈ componentFiles files root l,
      f.key l = g.key l → f.path = g.path) {e e' : Edit}
    (he : e ∈ walkEdits files l configured (root.join configured) [])
    (he' : e' ∈ walkEdits files l configured (root.join configured) [])
    (hk : e.sets .component k = true) (hk' : e'.sets .component k = true) : e = e' := by
  obtain ⟨category, p, source, rfl⟩ := Edit.sets_component_iff.1 hk
  obtain ⟨category', p', source', rfl⟩ := Edit.sets_component_iff.1 hk'
  obtain ⟨f, hf, hfc, hedit⟩ := mem_componentFiles_of_mem_walkEdits hc he
  obtain ⟨g, hg, hgc, hedit'⟩ := mem_componentFiles_of_mem_walkEdits hc he'
  have hkf : f.key l = k := (Edit.component.inj hedit).1
  have hkg : g.key l = k := (Edit.component.inj hedit').1
  obtain rfl := eq_of_path_eq hf hg (hfc.trans hgc.symm) (hkeys f hf g hg (hkf.trans hkg.symm))
  exact hedit.symm.trans hedit'

/-! ## Two builds -/

theorem builtIndex_component (k : Text) :
    (builtIndex files root l).components.find? k =
      (({} : Index).edited (componentEdits files root l)).components.find? k := by
  have hfilter : (buildEdits files root l).filter (fun e => e.kind == .component) =
      (componentEdits files root l).filter fun e => e.kind == .component :=
    filter_buildEdits .component fun e he => by simpa using he
  refine Index.edited_congr (fun index => index.components.find? k) ?_ ?_ hfilter {}
  · intro e he index
    cases e <;> simp_all [Edit.apply, Edit.kind]
  · intro e he index index' hs
    cases e <;> simp_all [Edit.apply, Edit.kind, OrderedMap.find?_insert, OrderedMap.find?_map]

theorem FileSystem.Reorders.find?_builtIndex (h : files.Reorders files') (hw : files.WellNamed)
    (hkeys : ∀ f ∈ componentFiles files root l, ∀ g ∈ componentFiles files root l,
      f.key l = g.key l → f.path = g.path) (k : Text) :
    (builtIndex files root l).components.find? k = (builtIndex files' root l).components.find? k := by
  -- The walks come in the order of the configuration, whatever the order of the listings is.
  have hwalks : ∀ dirs ⊆ l.componentDirs, ∀ index index' : Index,
      index.components.find? k = index'.components.find? k →
      (index.edited (dirs.flatMap fun configured =>
        walkEdits files l configured (root.join configured) [])).components.find? k =
      (index'.edited (dirs.flatMap fun configured =>
        walkEdits files' l configured (root.join configured) [])).components.find? k := by
    intro dirs
    induction dirs with
    | nil => exact fun _ _ _ hfind => hfind
    | cons configured dirs ih =>
        intro hdirs index index' hfind
        obtain ⟨hc, hdirs⟩ := List.cons_subset.1 hdirs
        rw [List.flatMap_cons, List.flatMap_cons, Index.edited_append, Index.edited_append]
        refine ih hdirs _ _ (Index.find?_edited_perm h.walkEdits_perm ?_ ?_ ?_ hfind)
        · exact settled_walkEdits hw (by simp)
        · exact settled_walkEdits (h.wellNamed hw) (by simp)
        · exact fun e he e' he' hk hk' => walkEdits_sets_unique hc hkeys he he' hk hk'
  rw [builtIndex_component, builtIndex_component]
  exact hwalks l.componentDirs (List.Subset.refl _) {} {} rfl

/-- Builds over file systems that differ only in the order of listings leave the same components with
the same documentation, but for the order of their keys. -/
theorem build_reordered {lib : Library} (hlog : lib.logger.Accepts) (hl : lib.settings.Lays l)
    (hw : lib.files.WellNamed) (h : lib.files.Reorders files')
    (hkeys : ∀ f ∈ componentFiles lib.files lib.root l, ∀ g ∈ componentFiles lib.files lib.root l,
      f.key l = g.key l → f.path = g.path) (w w' : Workspace) :
    ∃ index index' log log',
      build lib w = .ok () ⟨index, log⟩ ∧ build { lib with files := files' } w' = .ok () ⟨index', log'⟩ ∧
        index.components.entries.Perm index'.components.entries := by
  obtain ⟨log, hbuild⟩ := build_builtIndex lib hlog hl w
  obtain ⟨log', hbuild'⟩ := build_builtIndex { lib with files := files' } hlog hl w'
  exact ⟨_, _, log, log', hbuild, hbuild', OrderedMap.entries_perm (h.find?_builtIndex hw hkeys)⟩

/-! ## A library in two orders -/

/-- Two components and two READMEs, one about both categories. -/
def cardFiles : MemoryFiles :=
  ({} : MemoryFiles)
    |>.write "/lib/src/scripts/components/README.md" "# Card\nA card.\n# Row\nNo row of its own."
    |>.write "/lib/src/scripts/components/rows/Row.vue" ""
    |>.write "/lib/src/scripts/components/rows/README.md" "# Row\nA row."
    |>.write "/lib/src/scripts/components/Card.vue" ""

/-- The same files, written in another order. -/
def cardFilesReversed : MemoryFiles :=
  ({} : MemoryFiles)
    |>.write "/lib/src/scripts/components/Card.vue" ""
    |>.write "/lib/src/scripts/components/rows/README.md" "# Row\nA row."
    |>.write "/lib/src/scripts/components/rows/Row.vue" ""
    |>.write "/lib/src/scripts/components/README.md" "# Card\nA card.\n# Row\nNo row of its own."

/-- The library of these files. -/
def cardLibrary : Library where
  root := Path.ofText "/lib"
  files := cardFiles.fileSystem
  settings := Settings.ofBase ⟨[]⟩

theorem build_reordered_cardLibrary :
    ∃ index index' log log',
      build cardLibrary {} = .ok () ⟨index, log⟩ ∧
        build { cardLibrary with files := cardFilesReversed.fileSystem } {} = .ok () ⟨index', log'⟩ ∧
        index.components.entries.Perm index'.components.entries := by
  have hplain : cardFiles.Plain := (((MemoryFiles.plain_empty.write _ _).write _ _).write _ _).write _ _
  have hperm : cardFiles.nodes.entries.Perm cardFilesReversed.nodes.entries := by decide +kernel
  have hfailures : cardFiles.failures = cardFilesReversed.failures := by
    simp [cardFiles, cardFilesReversed]
  exact build_reordered Logger.silent_accepts (Settings.ofBase_lays _)
    (MemoryFiles.fileSystem_wellNamed hplain) (MemoryFiles.fileSystem_reorders hperm hfailures)
    (by decide +kernel) {} {}

end ComponentCatalog
