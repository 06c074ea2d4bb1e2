import ComponentCatalog.Proofs.Runs
import ComponentCatalog.Proofs.SettingWords
import ComponentCatalog.Proofs.StoredSettings

/-!
# Settings that outlast the program

One run after the other may change a setting. What was changed last is what the next run finds; a run
that does not succeed leaves the settings file as it is. A text holds no surrogate, so every value can be
encoded, and a file that is opened for writing is written to its end.
-/

namespace ComponentCatalog.CommandLine

open Settings

/-! ## One change -/

section Change

variable {host : Host} {given : Option Text} {base : Path} {disk : Disk} {settings : Settings}

theorem perform_request (a : Assignment) (hbase : findBase host.environment given = .ok base)
    (hload : Settings.load disk base = .ok settings) :
    (a.request given).perform host { disk } =
      Request.changeSetting settings (.complete a.group a.option a.value) { disk } := by
  have hsettings : (a.request given).storedSettings host.environment { disk } = .ok settings { disk } :=
    Request.storedSettings_apply hbase hload
  show ((a.request given).storedSettings host.environment >>= _ : Run Nat) { disk } = _
  rw [Run.bind_apply, hsettings]
  rfl

theorem changeSetting_unknown {group option : Text} (h : isKnown group option = false) (value : Text)
    (s : RunState) :
    ∃ output, Request.changeSetting settings (.complete group option value) s = .ok 1 { s with output } := by
  simp only [Request.changeSetting, h]
  exact ⟨_, rfl⟩

theorem changeSetting_known {group option : Text} (h : isKnown group option = true) (value : Text)
    (s : RunState) :
    Request.changeSetting settings (.complete group option value) s =
      match settings.ensureDirectory s.disk with
      | .error e => .error (.file e) s
      | .ok made =>
        match settings.set group option value with
        | (.error e, _) => .error (.setting e) { s with disk := made }
        | (.ok (), changed) =>
          match changed.save made with
          | .error e => .error (.file e) { s with disk := made }
          | .ok after => .ok 0 { s with
              disk := after
              output := s.output ++ Text.ofLines ["  ✅ " ++ group ++ "." ++ option ++ " = " ++ value] } := by
  simp only [Request.changeSetting, h, if_true]
  show (Request.storeSetting settings group option value >>= fun _ => _) s = _
  rw [Run.bind_apply]
  unfold Request.storeSetting
  rw [Run.bind_apply, Run.change_apply]
  cases settings.ensureDirectory s.disk with
  | error e => rfl
  | ok made =>
      dsimp only
      cases hset : settings.set group option value with
      | mk outcome changed =>
          dsimp only
          rw [Run.bind_apply, Run.check_apply]
          cases outcome with
          | error e => rfl
          | ok =>
              dsimp only
              rw [Run.bind_apply, Run.change_apply]
              cases changed.save made <;> rfl

theorem run_of_perform_ok {words : List Text} {r : Request} {code : Nat} {s : RunState}
    (hwords : Request.ofWords words = .ok r) (h : r.perform host { disk } = .ok code s) :
    (run host disk words).1.code = code ∧ (run host disk words).2 = s.disk := by
  simp only [run, hwords, Request.run, h, and_self]

theorem run_of_perform_error {words : List Text} {r : Request} {fault : Fault} {s : RunState}
    (hwords : Request.ofWords words = .ok r) (h : r.perform host { disk } = .error fault s) :
    (run host disk words).1.code = 1 ∧ (run host disk words).2 = s.disk := by
  simp only [run, hwords, Request.run, h]
  split <;> exact ⟨rfl, rfl⟩

end Change

/-! ## Runs that change a setting -/

/-- Does a command line ask for help? -/
def asksForHelp (words : List Text) : Bool :=
  match Request.ofWords words with
  | .error (.help _) => true
  | _ => false

/-- A run that is to change a setting. -/
structure Attempt where
  change : Assignment
  before : Disk
  outcome : Outcome
  after : Disk

namespace Attempt

variable (host : Host) (given : Option Text)

/-- A run on a disk. -/
def make (disk : Disk) (a : Assignment) : Attempt where
  change := a
  before := disk
  outcome := (run host disk (a.words given)).1
  after := (run host disk (a.words given)).2

@[simp] theorem make_change (disk : Disk) (a : Assignment) : (make host given disk a).change = a := rfl

/-- Runs one after the other, each on the disk that the one before left. -/
def sequence (disk : Disk) : List Assignment → List Attempt
  | [] => []
  | a :: rest => make host given disk a :: sequence (make host given disk a).after rest

/-- The disk after all runs. -/
def finalDisk (disk : Disk) (changes : List Assignment) : Disk :=
  changes.foldl (fun disk a => (make host given disk a).after) disk

/-- Did a run change a setting? It did if it ended well and did not just give help. -/
def succeeded (x : Attempt) : Bool := x.outcome.code == 0 && !asksForHelp (x.change.words given)

/-- The last value that a run gave a setting. -/
def lastValue? (xs : List Attempt) (group option : Text) : Option Text :=
  (xs.reverse.find? fun x => x.succeeded given && x.change.group == group && x.change.option == option).map
    (·.change.value)

/-- What it takes to change a setting. -/
structure Works (base : Path) (x : Attempt) : Prop where
  read : Request.ofWords (x.change.words given) = .ok (x.change.request given)
  known : isKnown x.change.group x.change.option = true
  unstray : Ini.strayPercent? x.change.value = none
  directory : ∃ made, (ofBase base).ensureDirectory x.before = .ok made

/-- A run leaves the settings file as it is. -/
structure Keeps (base : Path) (x : Attempt) : Prop where
  contains : x.after.contains (ofBase base).file = x.before.contains (ofBase base).file
  bytes : (x.after.readBytes (ofBase base).file).toOption = (x.before.readBytes (ofBase base).file).toOption

/-- The values that settings have after a run, from those before. -/
def leaves (x : Attempt) (v : Values) : Values :=
  if x.succeeded given then v.set x.change.group x.change.option x.change.value else v

end Attempt

section Attempt

variable {host : Host} {given : Option Text} {base : Path} {disk : Disk} {v : Values} {a : Assignment}

open Attempt

theorem keeps_of_after {x : Attempt} (h : x.after = x.before) : x.Keeps base := ⟨by rw [h], by rw [h]⟩

theorem make_unread {stop : Stop} (h : Request.ofWords (a.words given) = .error stop)
    (hstop : stop = .help .configSet ∨ ∃ c p, stop = .problem c p) :
    (make host given disk a).succeeded given = false ∧ (make host given disk a).after = disk := by
  simp only [make, run, h, and_true]
  rcases hstop with rfl | ⟨c, p, rfl⟩
  · simp [succeeded, asksForHelp, h]
  · simp [succeeded, Stop.outcome]

theorem make_perform_ok {r : Request} {code : Nat} {s : RunState} (hread : Request.ofWords (a.words given) = .ok r)
    (h : r.perform host { disk } = .ok code s) :
    (make host given disk a).succeeded given = (code == 0) ∧ (make host given disk a).after = s.disk := by
  obtain ⟨hcode, hafter⟩ := run_of_perform_ok hread h
  have hhelp : asksForHelp (a.words given) = false := by simp [asksForHelp, hread]
  exact ⟨by simp [succeeded, make, hcode, hhelp], hafter⟩

theorem make_perform_error {r : Request} {fault : Fault} {s : RunState}
    (hread : Request.ofWords (a.words given) = .ok r) (h : r.perform host { disk } = .error fault s) :
    (make host given disk a).succeeded given = false ∧ (make host given disk a).after = s.disk := by
  obtain ⟨hcode, hafter⟩ := run_of_perform_error hread h
  exact ⟨by simp [succeeded, make, hcode], hafter⟩

/-- A run changes a setting if all is there that it takes. -/
theorem make_works (hbase : findBase host.environment given = .ok base) (h : Stores disk base v)
    (hv : v.IsPlain) (hworks : (make host given disk a).Works given base) :
    (make host given disk a).succeeded given = true ∧
      Stores (make host given disk a).after base (v.set a.group a.option a.value) := by
  have hread : Request.ofWords (a.words given) = .ok (a.request given) := hworks.read
  have hknown : isKnown a.group a.option = true := hworks.known
  have hstray : Ini.strayPercent? a.value = none := hworks.unstray
  obtain ⟨made, hmade⟩ := hworks.directory
  obtain ⟨dir, hdir⟩ := Disk.exists_lookup_ensureDirectory hmade
  obtain ⟨after, hsave, hstores⟩ := (h.ensureDirectory hmade).1.save hdir (v.set a.group a.option a.value)
  have hperform := (perform_request a hbase (h.load hv)).trans (changeSetting_known hknown a.value { disk })
  have hensure : (Settings.mk base none (Settings.valued v)).ensureDirectory disk = .ok made := hmade
  have hini := valued_set v hknown a.value
  rw [hstray] at hini
  simp only [hensure, Settings.set, hini, hsave] at hperform
  obtain ⟨hsucceeded, hafter⟩ := make_perform_ok hread hperform
  rw [hafter]
  exact ⟨hsucceeded, hstores⟩

/-- A value with a stray percent sign is refused once the directory is made. -/
theorem make_strayed {made : Disk} {position : Nat} (hbase : findBase host.environment given = .ok base)
    (h : Stores disk base v) (hv : v.IsPlain) (hread : Request.ofWords (a.words given) = .ok (a.request given))
    (hknown : isKnown a.group a.option = true) (hmade : (ofBase base).ensureDirectory disk = .ok made)
    (hstray : Ini.strayPercent? a.value = some position) :
    (make host given disk a).succeeded given = false ∧ (make host given disk a).after = made := by
  have hperform := (perform_request a hbase (h.load hv)).trans (changeSetting_known hknown a.value { disk })
  have hensure : (Settings.mk base none (Settings.valued v)).ensureDirectory disk = .ok made := hmade
  have hini := valued_set v hknown a.value
  rw [hstray] at hini
  simp only [hensure, Settings.set, hini] at hperform
  exact make_perform_error hread hperform

/-- Otherwise it fails, and leaves the settings as they are. -/
theorem make_fails (hbase : findBase host.environment given = .ok base) (h : Stores disk base v)
    (hv : v.IsPlain) (hfails : ¬ (make host given disk a).Works given base) :
    (make host given disk a).succeeded given = false ∧
      Stores (make host given disk a).after base v ∧ (make host given disk a).Keeps base := by
  have hsame : (make host given disk a).succeeded given = false ∧ (make host given disk a).after = disk →
      (make host given disk a).succeeded given = false ∧
        Stores (make host given disk a).after base v ∧ (make host given disk a).Keeps base := by
    rintro ⟨hsucceeded, hafter⟩
    refine ⟨hsucceeded, ?_, keeps_of_after hafter⟩
    rw [hafter]
    exact h
  rcases ofWords_readsAs given a with hread | hread | ⟨c, p, hread⟩
  · have hperform := perform_request a hbase (h.load hv)
    cases hknown : isKnown a.group a.option with
    | false =>
        obtain ⟨output, hchange⟩ := changeSetting_unknown hknown a.value { disk }
        exact hsame (make_perform_ok hread (hperform.trans hchange))
    | true =>
        cases hmade : (ofBase base).ensureDirectory disk with
        | error e =>
            have hensure : (Settings.mk base none (Settings.valued v)).ensureDirectory disk = .error e := hmade
            rw [changeSetting_known hknown] at hperform
            simp only [hensure] at hperform
            exact hsame (make_perform_error hread hperform)
        | ok made =>
            obtain ⟨position, hstray⟩ : ∃ position, Ini.strayPercent? a.value = some position := by
              rw [← Option.ne_none_iff_exists']
              exact fun hnone => hfails ⟨hread, hknown, hnone, made, hmade⟩
            obtain ⟨hsucceeded, hafter⟩ := make_strayed hbase h hv hread hknown hmade hstray
            obtain ⟨hstores, hcontains, hbytes⟩ := h.ensureDirectory hmade
            refine ⟨hsucceeded, ?_, ?_, ?_⟩ <;> rw [hafter]
            · exact hstores
            · exact hcontains
            · exact hbytes
  · exact hsame (make_unread hread (.inl rfl))
  · exact hsame (make_unread hread (.inr ⟨c, p, rfl⟩))

end Attempt

/-! ## Many changes -/

section Sequence

variable {host : Host} {given : Option Text} {base : Path}

open Attempt

theorem lastValue?_cons (x : Attempt) (xs : List Attempt) (group option : Text) :
    lastValue? given (x :: xs) group option = (lastValue? given xs group option).or
      (if x.succeeded given && x.change.group == group && x.change.option == option then some x.change.value
        else none) := by
  unfold lastValue?
  rw [List.reverse_cons, List.find?_append, List.find?_singleton]
  cases xs.reverse.find? _ with
  | some y => rfl
  | none => split <;> rfl

theorem leaves_eq (x : Attempt) (v : Values) (group option : Text) :
    x.leaves given v group option =
      (if x.succeeded given && x.change.group == group && x.change.option == option then some x.change.value
        else none).getD (v group option) := by
  unfold leaves
  cases x.succeeded given with
  | false => rfl
  | true =>
      show (if group = x.change.group ∧ option = x.change.option then x.change.value else v group option) = _
      by_cases hsame : group = x.change.group ∧ option = x.change.option
      · rw [if_pos hsame, hsame.1, hsame.2]
        simp
      · have hother : ¬ (true && x.change.group == group && x.change.option == option) = true := by
          simpa [@eq_comm _ x.change.group, @eq_comm _ x.change.option] using hsame
        rw [if_neg hsame, if_neg hother]
        rfl

theorem map_change_sequence (disk : Disk) (changes : List Assignment) :
    (Attempt.sequence host given disk changes).map Attempt.change = changes := by
  induction changes generalizing disk with
  | nil => rfl
  | cons a changes ih => rw [Attempt.sequence, List.map_cons, ih, make_change]

/-- An option that no run is about has no last value. -/
theorem lastValue?_eq_none {disk : Disk} {changes : List Assignment} {option : Text}
    (h : option ∉ changes.map Assignment.option) (group : Text) :
    lastValue? given (Attempt.sequence host given disk changes) group option = none := by
  rw [lastValue?, Option.map_eq_none_iff, List.find?_eq_none]
  intro x hx
  have hchange : x.change ∈ changes := by
    have hmem := List.mem_map_of_mem (f := Attempt.change) (List.mem_reverse.1 hx)
    rwa [map_change_sequence] at hmem
  have hoption : x.change.option ≠ option := by
    rintro rfl
    exact h (List.mem_map_of_mem hchange)
  simp [hoption]

/-- One run, whether it changes a setting or not. -/
theorem make_stores (hbase : findBase host.environment given = .ok base) {disk : Disk} {v : Values}
    (h : Stores disk base v) (hv : v.IsPlain) {a : Assignment} (ha : Ini.IsPlain a.value) :
    (((make host given disk a).succeeded given = true ↔ (make host given disk a).Works given base) ∧
      ((make host given disk a).succeeded given = false → (make host given disk a).Keeps base)) ∧
    Stores (make host given disk a).after base ((make host given disk a).leaves given v) ∧
      ((make host given disk a).leaves given v).IsPlain := by
  unfold leaves
  by_cases hworks : (make host given disk a).Works given base
  · obtain ⟨hsucceeded, hstores⟩ := make_works hbase h hv hworks
    rw [if_pos hsucceeded]
    exact ⟨⟨by simp [hsucceeded, hworks], by simp [hsucceeded]⟩, hstores, hv.set ha _ _⟩
  · obtain ⟨hsucceeded, hstores, hkeeps⟩ := make_fails hbase h hv hworks
    rw [if_neg (by simp [hsucceeded])]
    exact ⟨⟨by simp [hsucceeded, hworks], fun _ => hkeeps⟩, hstores, hv⟩

theorem sequence_stores (hbase : findBase host.environment given = .ok base) {disk : Disk} {v : Values}
    (h : Stores disk base v) (hv : v.IsPlain) {changes : List Assignment}
    (hplain : ∀ a ∈ changes, Ini.IsPlain a.value) :
    (∀ x ∈ Attempt.sequence host given disk changes, (x.succeeded given = true ↔ x.Works given base) ∧
      (x.succeeded given = false → x.Keeps base)) ∧
    ∃ w : Values, Stores (finalDisk host given disk changes) base w ∧ w.IsPlain ∧
      ∀ group option, w group option =
        (lastValue? given (Attempt.sequence host given disk changes) group option).getD (v group option) := by
  induction changes generalizing disk v with
  | nil => exact ⟨by simp [Attempt.sequence], v, h, hv, fun _ _ => rfl⟩
  | cons a changes ih =>
      obtain ⟨ha, hrest⟩ := List.forall_mem_cons.1 hplain
      obtain ⟨hrun, hstores, hleaves⟩ := make_stores hbase h hv ha
      obtain ⟨hall, w, hw, hwplain, hvalues⟩ := ih hstores hleaves hrest
      refine ⟨List.forall_mem_cons.2 ⟨hrun, hall⟩, w, hw, hwplain, fun group option => ?_⟩
      rw [hvalues, Attempt.sequence, lastValue?_cons, Option.getD_or, leaves_eq]

/-- Runs that change settings of a base directory without a settings file. A run succeeds exactly if all
is there that it takes, and leaves the settings file as it is otherwise. What is loaded in the end are
the values of the last runs that succeeded, and the built-in ones of all other settings. -/
theorem changes_persist {disk : Disk} {changes : List Assignment}
    (hbase : findBase host.environment given = .ok base)
    (habsent : disk.contains (ofBase base).file = .ok false)
    (hup : ['.', '.'] ∈ base.parts → ∀ made, (ofBase base).ensureDirectory disk = .ok made →
      made.contains (ofBase base).file = .ok false)
    (hplain : ∀ a ∈ changes, Ini.IsPlain a.value) :
    (∀ x ∈ Attempt.sequence host given disk changes, (x.succeeded given = true ↔ x.Works given base) ∧
      (x.succeeded given = false → x.Keeps base)) ∧
    ∃ settings, Settings.load (finalDisk host given disk changes) base = .ok settings ∧
      ∀ group options, (group, options) ∈ known → ∀ option value, (option, value) ∈ options →
        settings.ini.raw? group option =
          some ((lastValue? given (Attempt.sequence host given disk changes) group option).getD value) := by
  have hafter : ∀ made, (ofBase base).ensureDirectory disk = .ok made →
      made.contains (ofBase base).file = .ok false := by
    intro made hmade
    by_cases hdots : ['.', '.'] ∈ base.parts
    · exact hup hdots made hmade
    · exact Disk.contains_child_ensureDirectory (isDownward_directory hbase hdots) isPlainName_file habsent hmade
  obtain ⟨hall, w, hstores, hw, hvalues⟩ := sequence_stores hbase (.absent habsent hafter)
    (fun _ _ hknown => builtIn_isPlain hknown) hplain
  refine ⟨hall, _, hstores.load hw, fun group options hgroup option value hoption => ?_⟩
  rw [valued_raw? w (isKnown_iff_mem.2 ⟨options, value, hgroup, hoption⟩), hvalues,
    builtIn_of_mem hgroup hoption]

end Sequence

theorem changes_persist_path :
    let changes : List Assignment :=
      [⟨"library", "path", "[a] = %%b; c"⟩, ⟨"library", "path", "50%"⟩, ⟨"library", "page", "a"⟩]
    findBase plainHost.environment (some "base") = .ok ⟨["/", "base"]⟩ ∧
      ({} : Disk).contains (ofBase ⟨["/", "base"]⟩).file = .ok false ∧ (∀ a ∈ changes, Ini.IsPlain a.value) ∧
      ∃ settings, Settings.load (Attempt.finalDisk plainHost (some "base") {} changes) ⟨["/", "base"]⟩ = .ok settings ∧
        settings.ini.raw? "library" "path" = some "[a] = %%b; c".toList ∧
        settings.ini.raw? "library" "tree_depth" = some "3".toList := by
  intro changes
  have hbase : findBase plainHost.environment (some "base") = .ok ⟨["/", "base"]⟩ := by rfl
  have habsent : ({} : Disk).contains (ofBase ⟨["/", "base"]⟩).file = .ok false := by rfl
  have hplain : ∀ a ∈ changes, Ini.IsPlain a.value := by
    have hall : ∀ a ∈ changes, a.value.trim = a.value ∧ '\n' ∉ a.value ∧ '\r' ∉ a.value := by decide
    exact fun a ha => ⟨(hall a ha).1, (hall a ha).2.1, (hall a ha).2.2⟩
  refine ⟨hbase, habsent, hplain, ?_⟩
  obtain ⟨hall, settings, hload, hraw⟩ := changes_persist hbase habsent (fun hup => absurd hup (by decide)) hplain
  refine ⟨settings, hload, ?_, ?_⟩
  · have hfirst := (hall _ List.mem_cons_self).1.2 {
      read := ofWords_words _ _ (by decide)
      known := by decide
      unstray := by decide
      directory := ⟨_, rfl⟩ }
    have hsecond := mt (fun h => ((hall _ (List.mem_cons_of_mem _ List.mem_cons_self)).1.1 h).unstray) (by decide)
    -- Only what the runs were to do and whether they succeeded counts from here on.
    have hlast : ∀ (given : Option Text) (x y z : Attempt), z.change.option ≠ x.change.option →
        x.succeeded given = true → y.succeeded given = false →
        Attempt.lastValue? given [x, y, z] x.change.group x.change.option = some x.change.value := by
      intro given x y z hz hx hy
      simp [Attempt.lastValue?, hx, hy, hz]
    have hvalue : Attempt.lastValue? (some "base") (Attempt.sequence plainHost (some "base") {} changes)
        "library" "path" = some "[a] = %%b; c".toList := by
      refine hlast _ _ _ _ ?_ hfirst (Bool.eq_false_iff.2 hsecond)
      show "page".toList ≠ "path".toList
      decide
    rw [hraw "library" _ (List.mem_cons_self) "path" "." (by decide), hvalue]
    rfl
  · have hnone : Attempt.lastValue? (some "base") (Attempt.sequence plainHost (some "base") {} changes)
        "library" "tree_depth" = none := lastValue?_eq_none (by decide) _
    rw [hraw "library" _ (List.mem_cons_self) "tree_depth" "3" (by decide), hnone]
    rfl

theorem ofWords_help :
    Request.ofWords (Assignment.words (some "base") ⟨"library", "path", "-h"⟩) = .error (.help .configSet) := by
  have hset : Command.configSet.read ["library", "path", "-h"] = .error (.help .configSet) :=
    Command.read_eq_error rfl (by cbv)
  have hconfig : Command.config.read ["set", "library", "path", "-h"] = .error (.help .configSet) := by
    rw [Command.read_child rfl rfl rfl]
    show (Command.configSet.read ["library", "path", "-h"] >>= _) = _
    rw [hset]
    rfl
  have hroot : Command.root.read (Assignment.words (some "base") ⟨"library", "path", "-h"⟩) =
      .error (.help .configSet) := by
    have hbase : "base".toList ≠ ['-', '-'] := by decide
    rw [Command.read_child rfl rfl (readTokens_basePath hbase _)]
    show (Command.config.read ["set", "library", "path", "-h"] >>= _) = _
    rw [hconfig]
    rfl
  show (Reading.request <$> (Command.root.read _ >>= _)) = _
  rw [hroot]
  rfl

/-- Someone whose home is named by way of a directory that is not there. -/
def astrayHost : Host := ⟨{ bindings := .ofList [("HOME", "x/../y")] }, "libscout"⟩

/-- A disk on which that home has settings. -/
def homeDisk : Disk where
  root := .directory "y" (.directory ".libscout" (.directory "config" (.file "defaults.ini" [] .empty) .empty)
    .empty) .empty

/-- A value that asks for help is not stored, although the run ends well. And a run that fails may make
the directory on the way to a base directory, so that settings are found there. -/
theorem settings_not_always_kept :
    let x := Attempt.make plainHost (some "base") {} ⟨"library", "path", "-h"⟩
    let y := Attempt.make astrayHost none homeDisk ⟨"library", "path", "50%"⟩
    (Ini.IsPlain x.change.value ∧ x.before.contains (ofBase ⟨["/", "base"]⟩).file = .ok false ∧
      x.outcome.code = 0 ∧ ∃ settings, Settings.load x.after ⟨["/", "base"]⟩ = .ok settings ∧
        settings.ini.raw? "library" "path" = some ".".toList) ∧
    ∃ base, findBase astrayHost.environment none = .ok base ∧
      y.before.contains (ofBase base).file = .ok false ∧ y.outcome.code = 1 ∧
        y.after.contains (ofBase base).file = .ok true := by
  intro x y
  constructor
  · have houtcome : x.outcome = (Stop.help .configSet).outcome ∧ x.after = {} := by
      simp only [x, Attempt.make, run, ofWords_help, and_self]
    refine ⟨⟨by decide, by decide, by decide⟩, rfl, by rw [houtcome.1]; rfl, ofBase ⟨["/", "base"]⟩, ?_, by decide⟩
    rw [houtcome.2]
    rfl
  · have hbase : findBase astrayHost.environment none = .ok ⟨["x", "..", "y", ".libscout"]⟩ := by rfl
    have hload : Settings.load homeDisk ⟨["x", "..", "y", ".libscout"]⟩ =
        .ok (ofBase ⟨["x", "..", "y", ".libscout"]⟩) := by rfl
    have hread : Request.ofWords (Assignment.words none ⟨"library", "path", "50%"⟩) =
        .ok (Assignment.request none ⟨"library", "path", "50%"⟩) := ofWords_words _ _ (by decide)
    have hknown : isKnown "library" "path" = true := by decide
    have hperform := (perform_request ⟨"library", "path", "50%"⟩ hbase hload).trans (changeSetting_known hknown _ _)
    obtain ⟨hcode, hafter⟩ := run_of_perform_error hread hperform
    refine ⟨_, hbase, by rfl, hcode, ?_⟩
    show (run astrayHost homeDisk _).2.contains _ = _
    rw [hafter]
    rfl

end ComponentCatalog.CommandLine
