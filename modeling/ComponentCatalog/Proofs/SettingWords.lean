import ComponentCatalog.Proofs.CommandWords

/-!
# Command lines that change a setting

A command line that names a section, an option and a value is read as that change, unless one of these
words is seen as an option or as a separator.
-/

namespace ComponentCatalog.CommandLine

/-! ## Changes of a setting -/

/-- A change of a setting. -/
structure Assignment where
  group : Text
  option : Text
  value : Text
deriving Repr, DecidableEq

namespace Assignment

/-- The words that ask for a change of the settings of a base directory, or of the one that is found
where none is given. -/
def words (given : Option Text) (a : Assignment) : List Text :=
  let change : List Text := ["config", "set", a.group, a.option, a.value]
  match given with
  | none => change
  | some base => "--base-path" :: base :: change

/-- What these words ask for. -/
def request (given : Option Text) (a : Assignment) : Request where
  base := given
  action := .settings (.change (.complete a.group a.option a.value))

end Assignment

/-- A reading comes to `a`, unless it ends with the help on changes of settings or with a problem. -/
def ReadsAs {α : Type} (x : Except Stop α) (a : α) : Prop :=
  x = .ok a ∨ x = .error (.help .configSet) ∨ ∃ c p, x = .error (.problem c p)

namespace ReadsAs

variable {α β : Type} {a : α} {b : β} {f : α → Except Stop β} {c : Command}

theorem bind {x : Except Stop α} (h : ReadsAs x a) (hf : ReadsAs (f a) b) : ReadsAs (x >>= f) b := by
  rcases h with rfl | rfl | ⟨c, p, rfl⟩
  · exact hf
  · exact .inr (.inl rfl)
  · exact .inr (.inr ⟨c, p, rfl⟩)

theorem of_tokens {x : Except Problem α} (h : ∀ a, x = .ok a → ReadsAs (f a) b) :
    ReadsAs (x.mapError (.problem c) >>= f) b := by
  cases x with
  | error p => exact .inr (.inr ⟨c, p, rfl⟩)
  | ok a => exact h a rfl

end ReadsAs

section Assignment

variable (group option value : Text)

/-- What is read from the words of a change. -/
def assignmentReading (options : Cluster) : Reading where
  command := .configSet
  options := options
  operands := [(.group, some group), (.setting, some option), (.value, some value)]
  extras := []

theorem configSet_readsAs :
    ReadsAs (Command.configSet.read [group, option, value]) (assignmentReading group option value []) := by
  rw [Command.read_leaf rfl]
  refine .of_tokens fun tokens htokens => ?_
  have htext := Command.tokens_text htokens
  cases h : Command.configSet.readTokens { pending := Command.configSet.operands } tokens with
  | error stop =>
      rcases Command.readTokens_eq_error rfl (by decide) (Command.owns_of_tokens htokens) h with rfl | ⟨p, rfl⟩
      · exact .inr (.inl rfl)
      · exact .inr (.inr ⟨_, p, rfl⟩)
  | ok result =>
      obtain ⟨progress, chosen⟩ := result
      cases hpending : progress.pending with
      | cons o more =>
          refine .inr (.inr ⟨.configSet, .missingOperands progress.pending, ?_⟩)
          simp [bind, Except.bind, hpending]
      | nil =>
          have hlen : tokens.length = 3 := by simpa using congrArg List.length htext
          obtain ⟨hroles, hprogress⟩ := Command.readTokens_filled rfl hlen h hpending
          have hdash := Command.notMem_of_tokens htokens hroles
          match tokens, htext with
          | [t₁, t₂, t₃], htext =>
              obtain ⟨rfl, rfl, rfl⟩ : t₁.text = group ∧ t₂.text = option ∧ t₃.text = value := by
                simpa using htext
              obtain ⟨h₁, h₂, h₃⟩ : ['-', '-'] ≠ t₁.text ∧ ['-', '-'] ≠ t₂.text ∧ ['-', '-'] ≠ t₃.text := by
                simpa using hdash
              refine .inl ?_
              rw [hprogress]
              simp [bind, Except.bind, Command.operands, assignmentReading, Ne.symm h₁, Ne.symm h₂, Ne.symm h₃]

theorem child_readsAs {c d : Command} {word : Text} {words : List Text} {reading : Reading}
    (hword : word.head? ≠ some '-') (hd : c.children.find? (·.word == word) = some d)
    (h : ReadsAs (d.read words) reading) : ReadsAs (c.read (word :: words)) reading := by
  have hchildren : c.children ≠ [] := List.ne_nil_of_mem (List.mem_of_find?_eq_some hd)
  cases hwords : c.tokens words with
  | error p =>
      refine .inr (.inr ⟨c, p, Command.read_eq_problem ?_⟩)
      rw [Command.tokens_operand_cons hword, hwords]
      rfl
  | ok tokens =>
      have htokens : c.tokens (word :: words) = .ok (⟨word, .operand⟩ :: tokens) := by
        rw [Command.tokens_operand_cons hword, hwords]
        rfl
      rw [Command.read_child hd htokens (Command.tokens_text hwords ▸ Command.readTokens_child hchildren _ word tokens)]
      refine h.bind (.inl ?_)
      simp

theorem tokens_basePath (words : List Text) :
    Command.root.tokens ("--base-path" :: words) =
      Command.root.tokens words >>= fun tokens => .ok (⟨"--base-path", .long .basePath none⟩ :: tokens) := by
  have hrole : Command.root.role "--base-path" = .ok (.long .basePath none) := rfl
  rw [Command.tokens_cons (by decide), hrole]
  rfl

/-- The words behind the option of the base directory: one that is no operand, or the directory and the
name of a command. -/
theorem tokens_basePath_cases (base : Text) (words : List Text) :
    (∃ p, Command.root.tokens ("--base-path" :: base :: "config" :: words) = .error p) ∨
    (∃ other tokens, other.role ≠ .operand ∧ Command.root.tokens ("--base-path" :: base :: "config" :: words) =
      .ok (⟨"--base-path", .long .basePath none⟩ :: other :: tokens)) ∨
    ∃ tokens, base ≠ ['-', '-'] ∧ tokens.map Token.text = words ∧
      Command.root.tokens ("--base-path" :: base :: "config" :: words) =
        .ok (⟨"--base-path", .long .basePath none⟩ :: ⟨base, .operand⟩ :: ⟨"config", .operand⟩ :: tokens) := by
  have hconfig : Command.root.tokens ("config" :: words) =
      Command.root.tokens words >>= fun tokens => .ok (⟨"config", .operand⟩ :: tokens) :=
    Command.tokens_operand_cons (by decide)
  rw [tokens_basePath]
  by_cases hbase : base = ['-', '-']
  · refine .inr (.inl ⟨⟨base, .separator⟩, ⟨"config", .operand⟩ :: words.map fun w => ⟨w, .operand⟩, by simp, ?_⟩)
    rw [Command.tokens, if_pos hbase]
    rfl
  · rw [Command.tokens_cons hbase, hconfig]
    cases hrole : Command.root.role base with
    | error p => exact .inl ⟨p, rfl⟩
    | ok role =>
        cases hwords : Command.root.tokens words with
        | error p => exact .inl ⟨p, rfl⟩
        | ok tokens =>
            by_cases hoperand : role = .operand
            · subst hoperand
              exact .inr (.inr ⟨tokens, hbase, Command.tokens_text hwords, rfl⟩)
            · exact .inr (.inl ⟨⟨base, role⟩, ⟨"config", .operand⟩ :: tokens, hoperand, rfl⟩)

theorem readTokens_basePath {base : Text} (hbase : base ≠ ['-', '-']) (tokens : List Token) :
    Command.root.readTokens { pending := [] }
        (⟨"--base-path", .long .basePath none⟩ :: ⟨base, .operand⟩ :: ⟨"config", .operand⟩ :: tokens) =
      .ok ({ options := [(.basePath, some base)] }, some ("config" :: tokens.map Token.text)) := by
  have htake : Progress.takeCluster .root { pending := [] } [(.basePath, none)] (some base) =
      .ok { options := [(.basePath, some base)] } := by
    have hkept : (some base).filter (· != ['-', '-']) = some base := by simpa using hbase
    show (Progress.take .root { pending := [] } (.basePath, some base) >>= _) = _
    simp only [Progress.take, Opt.kind, hkept]
    rfl
  rw [Command.readTokens]
  show (Progress.takeCluster .root { pending := [] } [(.basePath, none)] (some base) >>= _) = _
  rw [htake]
  exact Command.readTokens_child (by decide) _ _ _

theorem readTokens_basePath_missing {other : Token} (h : other.role ≠ .operand) (tokens : List Token) :
    Command.root.readTokens { pending := [] }
        (⟨"--base-path", .long .basePath none⟩ :: other :: tokens) =
      .error (.problem .root (.missingValue .basePath)) := by
  obtain ⟨text, role⟩ := other
  rw [Command.readTokens]
  cases role with
  | operand => exact absurd rfl h
  | _ => rfl

theorem root_readsAs (given : Option Text) :
    ReadsAs (Command.root.read (Assignment.words given ⟨group, option, value⟩))
      (assignmentReading group option value (given.elim [] fun base => [(.basePath, some base)])) := by
  have hconfig : ReadsAs (Command.config.read ["set", group, option, value])
      (assignmentReading group option value []) :=
    child_readsAs (by decide) (by decide) (configSet_readsAs group option value)
  cases given with
  | none => exact child_readsAs (by decide) (by decide) hconfig
  | some base =>
      show ReadsAs (Command.root.read ("--base-path" :: base :: "config" :: ["set", group, option, value])) _
      rcases tokens_basePath_cases base ["set", group, option, value] with
        ⟨p, htokens⟩ | ⟨other, tokens, hother, htokens⟩ | ⟨tokens, hbase, htext, htokens⟩
      · exact .inr (.inr ⟨.root, p, Command.read_eq_problem htokens⟩)
      · exact .inr (.inr ⟨.root, _, Command.read_eq_error htokens (readTokens_basePath_missing hother tokens)⟩)
      · have hread := readTokens_basePath hbase tokens
        rw [htext] at hread
        rw [Command.read_child rfl htokens hread]
        exact hconfig.bind (.inl rfl)

theorem configSet_read (h : ∀ word ∈ [group, option, value], word.head? ≠ some '-') :
    Command.configSet.read [group, option, value] = .ok (assignmentReading group option value []) := by
  have hne : ∀ word ∈ [group, option, value], word ≠ ['-', '-'] := fun word hword =>
    Command.ne_separator_of_head (h word hword)
  rw [Command.read_leaf rfl, Command.tokens_of_operands h]
  simp at hne
  simp [bind, Except.bind, Command.readTokens, Command.children, Command.operands,
    Progress.takeOperand, hne, checkForm, Operand.form, assignmentReading, pure, Except.pure]

theorem child_read {c d : Command} {word : Text} {words : List Text} {reading : Reading}
    (hwords : ∀ w ∈ word :: words, w.head? ≠ some '-') (hd : c.children.find? (·.word == word) = some d)
    (h : d.read words = .ok reading) : c.read (word :: words) = .ok reading := by
  have hchildren : c.children ≠ [] := List.ne_nil_of_mem (List.mem_of_find?_eq_some hd)
  have hread := Command.readTokens_child hchildren { pending := c.operands } word
    (words.map fun w => ⟨w, .operand⟩)
  rw [List.map_map, Function.comp_def, List.map_id'] at hread
  rw [Command.read_child hd (Command.tokens_of_operands hwords) hread, h]
  simp [bind, Except.bind]

end Assignment

/-- The words of a change are read as that change, unless they are read as something that ends the
reading. -/
theorem ofWords_readsAs (given : Option Text) (a : Assignment) :
    ReadsAs (Request.ofWords (a.words given)) (a.request given) := by
  have hwords : ReadsAs (readWords (a.words given)) _ :=
    (root_readsAs a.group a.option a.value given).bind (.inl rfl)
  have hrequest : Request.ofWords (a.words given) = readWords (a.words given) >>= fun r => .ok r.request := rfl
  rw [hrequest]
  refine hwords.bind (.inl ?_)
  cases given <;> rfl

/-- Words without a dash in front are read as they are meant. -/
theorem ofWords_words (given : Option Text) (a : Assignment)
    (h : ∀ word ∈ given.toList ++ [a.group, a.option, a.value], word.head? ≠ some '-') :
    Request.ofWords (a.words given) = .ok (a.request given) := by
  obtain ⟨hgiven, hchange⟩ := List.forall_mem_append.1 h
  have hset : ∀ word ∈ "set".toList :: [a.group, a.option, a.value], word.head? ≠ some '-' :=
    List.forall_mem_cons.2 ⟨by decide, hchange⟩
  have hconfig : Command.config.read ["set", a.group, a.option, a.value] =
      .ok (assignmentReading a.group a.option a.value []) :=
    child_read hset rfl (configSet_read _ _ _ hchange)
  have hwords : ∀ word ∈ "config".toList :: "set".toList :: [a.group, a.option, a.value], word.head? ≠ some '-' :=
    List.forall_mem_cons.2 ⟨by decide, hset⟩
  have hroot : Command.root.read (a.words given) = .ok (assignmentReading a.group a.option a.value
      (given.elim [] fun base => [(.basePath, some base)])) := by
    cases given with
    | none => exact child_read hwords rfl hconfig
    | some base =>
        have hbase : base.head? ≠ some '-' := hgiven base (by simp)
        have htokens := Command.tokens_of_operands (c := .root) (List.forall_mem_cons.2 ⟨hbase, hwords⟩)
        have hread := readTokens_basePath (Command.ne_separator_of_head hbase)
          (("set" :: [a.group, a.option, a.value] : List Text).map fun w => ⟨w, .operand⟩)
        rw [List.map_map, Function.comp_def, List.map_id'] at hread
        show Command.root.read ("--base-path" :: base :: "config" :: ["set", a.group, a.option, a.value]) = _
        rw [Command.read_child rfl (by rw [tokens_basePath, htokens]; rfl) hread, hconfig]
        rfl
  show (Reading.request <$> (Command.root.read (a.words given) >>= _)) = _
  rw [hroot]
  cases given <;> rfl

end ComponentCatalog.CommandLine
