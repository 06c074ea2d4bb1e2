import ComponentCatalog.CommandLine.Request
import ComponentCatalog.Proofs.Results

/-!
# The words of a command

What a command reads from its words. A command with operands alone takes them from as many words only
if all of these are seen as operands.
-/

namespace ComponentCatalog.CommandLine

/-! ## Tokens -/

namespace Command

variable {c : Command} {word : Text} {words : List Text} {tokens : List Token}

/-- The options that a token names are options of the command. -/
def Owns (c : Command) (t : Token) : Prop :=
  ∀ o value, t.role = .long o value ∨ t.role = .short o value → o ∈ c.options

theorem mem_optionsOfWord {o : Opt} (h : o ∈ c.optionsOfWord word) : o ∈ c.options := by
  unfold optionsOfWord at h
  split at h
  · next found hfound =>
      obtain rfl := List.mem_singleton.1 h
      exact List.mem_of_find?_eq_some hfound
  · exact (List.mem_filter.1 h).1

theorem owns_of_role {role : Role} (h : c.role word = .ok role) : c.Owns ⟨word, role⟩ := by
  have hfallback : ∀ (o : Opt) (value : Option Text) (t : Text),
      ¬ (fallback t = .long o value ∨ fallback t = .short o value) := by
    intro o value t
    unfold fallback
    split <;> simp
  unfold Command.role at h
  intro o value hrole
  split at h
  · dsimp only at h
    split at h
    · cases h
      exact absurd hrole (hfallback o value _)
    · next found hfound =>
        cases h
        obtain ⟨rfl, -⟩ : found = o ∧ _ := by simpa using hrole
        exact mem_optionsOfWord (hfound ▸ List.mem_singleton_self _)
    · cases h
  · split at h
    · next found hfound =>
        cases h
        obtain ⟨rfl, -⟩ : found = o ∧ _ := by simpa using hrole
        exact List.mem_of_find?_eq_some hfound
    · cases h
      exact absurd hrole (hfallback o value _)
  · cases h
    simp at hrole

theorem tokens_cons (hword : word ≠ ['-', '-']) :
    c.tokens (word :: words) = c.role word >>= fun role => c.tokens words >>= fun tokens =>
      .ok (⟨word, role⟩ :: tokens) := by
  rw [Command.tokens, if_neg hword]
  rfl

theorem tokens_text (h : c.tokens words = .ok tokens) : tokens.map Token.text = words := by
  induction words generalizing tokens with
  | nil => cases h; rfl
  | cons word words ih =>
      by_cases hword : word = ['-', '-']
      · rw [Command.tokens, if_pos hword] at h
        cases h
        simp [Function.comp_def]
      · rw [tokens_cons hword] at h
        obtain ⟨role, -, h⟩ := exists_of_bind_ok h
        obtain ⟨rest, hrest, h⟩ := exists_of_bind_ok h
        cases h
        rw [List.map_cons, ih hrest]

theorem owns_of_tokens (h : c.tokens words = .ok tokens) : ∀ t ∈ tokens, c.Owns t := by
  induction words generalizing tokens with
  | nil => cases h; simp
  | cons word words ih =>
      by_cases hword : word = ['-', '-']
      · rw [Command.tokens, if_pos hword] at h
        cases h
        simp [Owns]
      · rw [tokens_cons hword] at h
        obtain ⟨role, hrole, h⟩ := exists_of_bind_ok h
        obtain ⟨rest, hrest, h⟩ := exists_of_bind_ok h
        cases h
        exact List.forall_mem_cons.2 ⟨owns_of_role hrole, ih hrest⟩

/-- A word that stands for a separator is seen as one. -/
theorem notMem_of_tokens (h : c.tokens words = .ok tokens) (hall : ∀ t ∈ tokens, t.role = .operand) :
    ['-', '-'] ∉ words := by
  induction words generalizing tokens with
  | nil => simp
  | cons word words ih =>
      by_cases hword : word = ['-', '-']
      · rw [Command.tokens, if_pos hword] at h
        cases h
        cases hall _ List.mem_cons_self
      · rw [tokens_cons hword] at h
        obtain ⟨role, -, h⟩ := exists_of_bind_ok h
        obtain ⟨rest, hrest, h⟩ := exists_of_bind_ok h
        cases h
        exact List.not_mem_cons_of_ne_of_not_mem (Ne.symm hword)
          (ih hrest fun t ht => hall t (List.mem_cons_of_mem _ ht))

theorem role_of_head (h : word.head? ≠ some '-') : c.role word = .ok .operand := by
  unfold Command.role
  split
  · exact absurd rfl h
  · exact absurd rfl h
  · rfl

theorem ne_separator_of_head (h : word.head? ≠ some '-') : word ≠ ['-', '-'] := by
  rintro rfl
  exact h rfl

/-- A word without a dash in front is an operand. -/
theorem tokens_operand_cons (h : word.head? ≠ some '-') :
    c.tokens (word :: words) = c.tokens words >>= fun tokens => .ok (⟨word, .operand⟩ :: tokens) := by
  rw [tokens_cons (ne_separator_of_head h), role_of_head h]
  rfl

theorem tokens_of_operands (h : ∀ word ∈ words, word.head? ≠ some '-') :
    c.tokens words = .ok (words.map fun word => ⟨word, .operand⟩) := by
  induction words with
  | nil => rfl
  | cons word words ih =>
      rw [tokens_operand_cons (h word List.mem_cons_self), ih fun word hmem => h word (List.mem_cons_of_mem _ hmem)]
      rfl

end Command

/-! ## Options -/

theorem Command.mem_options_of_cluster {c : Command} {o : Opt} {letters : Text} {cluster : Cluster}
    (ho : o ∈ c.options) (h : c.cluster o letters = .ok cluster) : ∀ x ∈ cluster, x.1 ∈ c.options := by
  induction letters generalizing o cluster with
  | nil =>
      cases h
      simpa using ho
  | cons letter letters ih =>
      rw [Command.cluster] at h
      split at h
      · cases h
        simpa using ho
      · split at h
        · cases h
        · next next hnext =>
            obtain ⟨rest, hrest, h⟩ := exists_of_bind_ok h
            cases h
            exact List.forall_mem_cons.2 ⟨ho, ih (List.mem_of_find?_eq_some hnext) hrest⟩

theorem Token.mem_options_of_cluster {c : Command} {t : Token} {cluster : Cluster} (ht : c.Owns t)
    (h : t.cluster c = .ok cluster) : ∀ x ∈ cluster, x.1 ∈ c.options := by
  have hvalued : ∀ (o : Opt) (value : Text), o ∈ c.options → valued o value = .ok cluster →
      ∀ x ∈ cluster, x.1 ∈ c.options := by
    intro o value ho hvalue
    unfold valued at hvalue
    split at hvalue
    · cases hvalue
      simpa using ho
    · cases hvalue
  unfold Token.cluster at h
  split at h
  · next o hrole =>
      cases h
      simpa using ht o none (.inl hrole)
  · next o hrole =>
      cases h
      simpa using ht o none (.inr hrole)
  · next o value hrole => exact hvalued o value (ht o (some value) (.inl hrole)) h
  · next o hrole => exact hvalued o [] (ht o (some []) (.inr hrole)) h
  · next o letters _ hrole => exact Command.mem_options_of_cluster (ht o (some letters) (.inr hrole)) h
  · cases h
    simp
  · cases h
    simp
  · cases h
    simp

namespace Progress

variable {c : Command} {s t : Progress}

theorem take_pending {given : Opt × Option Text} (h : s.take c given = .ok t) : t.pending = s.pending := by
  unfold Progress.take at h
  dsimp only at h
  split at h
  · cases h
  · cases h
  · obtain ⟨-, -, h⟩ := exists_of_bind_ok h
    cases h
    rfl
  · cases h
    rfl

theorem takeCluster_pending {cluster : Cluster} {value : Option Text}
    (h : s.takeCluster c cluster value = .ok t) : t.pending = s.pending := by
  unfold Progress.takeCluster at h
  dsimp only at h
  induction cluster generalizing s with
  | nil => cases h; rfl
  | cons first cluster ih =>
      rw [List.map_cons] at h
      obtain ⟨mid, hmid, h⟩ := foldlM_cons_eq_ok h
      rw [ih h, take_pending hmid]

theorem takeOperand_eq_ok {o : Operand} {rest : List Operand} {value : Option Text}
    (h : s.takeOperand c o rest value = .ok t) :
    t = { s with operands := s.operands ++ [(o, value)], pending := rest } := by
  unfold Progress.takeOperand at h
  cases value with
  | none => cases h; rfl
  | some value =>
      dsimp only at h
      obtain ⟨-, -, h⟩ := exists_of_bind_ok h
      cases h
      rfl

/-- Without the option that asks for the version, what ends the reading is a request for help or a
problem. -/
theorem take_eq_error {given : Opt × Option Text} {stop : Stop} (hgiven : given.1 ≠ .version)
    (h : s.take c given = .error stop) : stop = .help c ∨ ∃ p, stop = .problem c p := by
  unfold Progress.take at h
  dsimp only at h
  split at h
  · cases h
    exact .inl rfl
  · next hkind =>
      refine absurd ?_ hgiven
      cases hopt : given.1 <;> simp [hopt, Opt.kind] at hkind ⊢
  · rcases bind_eq_error h with h | ⟨-, -, h⟩
    · obtain ⟨p, -, rfl⟩ := mapError_eq_error h
      exact .inr ⟨p, rfl⟩
    · cases h
  · cases h

theorem takeCluster_eq_error {cluster : Cluster} {value : Option Text} {stop : Stop}
    (hcluster : ∀ x ∈ cluster, x.1 ≠ .version) (h : s.takeCluster c cluster value = .error stop) :
    stop = .help c ∨ ∃ p, stop = .problem c p := by
  unfold Progress.takeCluster at h
  dsimp only at h
  induction cluster generalizing s with
  | nil => cases h
  | cons first cluster ih =>
      obtain ⟨hfirst, hrest⟩ := List.forall_mem_cons.1 hcluster
      rw [List.map_cons, List.foldlM_cons] at h
      rcases bind_eq_error h with h | ⟨mid, -, h⟩
      · refine take_eq_error ?_ h
        exact hfirst
      · exact ih hrest h

theorem takeOperand_eq_error {o : Operand} {rest : List Operand} {value : Option Text} {stop : Stop}
    (h : s.takeOperand c o rest value = .error stop) : ∃ p, stop = .problem c p := by
  unfold Progress.takeOperand at h
  cases value with
  | none => cases h
  | some value =>
      dsimp only at h
      rcases bind_eq_error h with h | ⟨-, -, h⟩
      · obtain ⟨p, -, rfl⟩ := mapError_eq_error h
        exact ⟨p, rfl⟩
      · cases h

end Progress

/-! ## Commands with operands -/

namespace Command

variable {c : Command} {s t : Progress} {tokens rest : List Token} {chosen : Option (List Text)}

/-- What becomes of the first token of a command without commands below it: the reading ends, or it goes
on with the next tokens and at most one operand less. -/
inductive Turn (c : Command) (s : Progress) (t : Token) (rest : List Token) :
    Except Stop (Progress × Option (List Text)) → Prop
  | stop {stop : Stop} :
      (c.Owns t → .version ∉ c.options → stop = .help c ∨ ∃ p, stop = .problem c p) →
      Turn c s t rest (.error stop)
  | last : t.role = .separator → rest = [] → s.pending ≠ [] →
      Turn c s t rest (.ok ({ s with extras := s.extras ++ [t.text] }, none))
  | aside {next : Progress} {left : List Token} : left <:+ rest → next.pending = s.pending →
      Turn c s t rest (c.readTokens next left)
  | operand {o : Operand} {more : List Operand} : t.role = .operand → s.pending = o :: more →
      Turn c s t rest (c.readTokens { s with
        operands := s.operands ++ [(o, if t.text = ['-', '-'] then none else some t.text)]
        pending := more } rest)
  | pair {next : Progress} {o : Operand} {other : Token} {left : List Token} :
      rest = other :: left → s.pending = o :: next.pending → Turn c s t rest (c.readTokens next left)

theorem turn_takeOperand {text : Text} {o : Operand} {more : List Operand} (hpending : s.pending = o :: more) :
    c.Turn s ⟨text, .operand⟩ rest
      (s.takeOperand c o more (if text = ['-', '-'] then none else some text) >>= (c.readTokens · rest)) := by
  cases htake : s.takeOperand c o more (if text = ['-', '-'] then none else some text) with
  | error stop => exact .stop fun _ _ => .inr (Progress.takeOperand_eq_error htake)
  | ok next =>
      cases Progress.takeOperand_eq_ok htake
      exact .operand rfl hpending

theorem turn_pair {t other : Token} {o : Operand} {more : List Operand} {value : Option Text}
    (hpending : s.pending = o :: more) :
    c.Turn s t (other :: rest) (s.takeOperand c o more value >>= (c.readTokens · rest)) := by
  cases htake : s.takeOperand c o more value with
  | error stop => exact .stop fun _ _ => .inr (Progress.takeOperand_eq_error htake)
  | ok next =>
      cases Progress.takeOperand_eq_ok htake
      exact .pair rfl hpending

theorem turn_takeCluster {t : Token} {cluster : Cluster} {value : Option Text} {left : List Token}
    (hcluster : t.cluster c = .ok cluster) (hleft : left <:+ rest) :
    c.Turn s t rest (s.takeCluster c cluster value >>= (c.readTokens · left)) := by
  cases htake : s.takeCluster c cluster value with
  | error stop =>
      refine .stop fun howns hversion => Progress.takeCluster_eq_error (fun x hx heq => hversion ?_) htake
      exact heq ▸ Token.mem_options_of_cluster howns hcluster x hx
  | ok next => exact .aside hleft (Progress.takeCluster_pending htake)

theorem turn_cluster {t : Token} {k : Cluster → Except Stop (Progress × Option (List Text))}
    (hk : ∀ cluster, t.cluster c = .ok cluster → c.Turn s t rest (k cluster)) :
    c.Turn s t rest ((t.cluster c).mapError (.problem c) >>= k) := by
  cases hcluster : t.cluster c with
  | error p => exact .stop fun _ _ => .inr ⟨p, rfl⟩
  | ok cluster => exact hk cluster hcluster

theorem readTokens_turn (hc : c.children = []) (s : Progress) (t : Token) (rest : List Token) :
    c.Turn s t rest (c.readTokens s (t :: rest)) := by
  have hempty : c.children.isEmpty = true := by simp [hc]
  obtain ⟨text, role⟩ := t
  cases role with
  | operand =>
      rw [Command.readTokens]
      dsimp only
      rw [if_pos hempty]
      split
      · exact .aside List.suffix_rfl rfl
      · next o more hpending =>
          cases rest with
          | nil => exact turn_takeOperand hpending
          | cons other rest =>
              obtain ⟨text', role'⟩ := other
              cases role' with
              | separator => exact turn_pair hpending
              | _ => exact turn_takeOperand hpending
  | separator =>
      rw [Command.readTokens]
      dsimp only
      rw [if_pos hempty]
      split
      · exact .aside List.suffix_rfl rfl
      · next o more hpending =>
          cases rest with
          | nil => exact .last rfl rfl (by simp [hpending])
          | cons other rest => exact turn_pair hpending
  | unknown =>
      rw [Command.readTokens]
      exact .aside List.suffix_rfl rfl
  | _ =>
      rw [Command.readTokens]
      refine turn_cluster fun cluster hcluster => ?_
      split
      · exact turn_takeCluster hcluster List.suffix_rfl
      · split
        · exact turn_takeCluster hcluster (List.suffix_cons ..)
        · exact .stop fun _ _ => .inr ⟨_, rfl⟩

/-- No command is chosen, and each token fills one operand at most. -/
theorem readTokens_pending (hc : c.children = []) (h : c.readTokens s tokens = .ok (t, chosen)) :
    chosen = none ∧ s.pending.length ≤ t.pending.length + tokens.length := by
  induction hn : tokens.length using Nat.strongRecOn generalizing s tokens with
  | _ n ih =>
      cases tokens with
      | nil =>
          cases h
          exact ⟨rfl, Nat.le_add_right ..⟩
      | cons first rest =>
          rw [List.length_cons] at hn
          have hturn := readTokens_turn hc s first rest
          rw [h] at hturn
          generalize hx : Except.ok (t, chosen) = x at hturn
          cases hturn with
          | stop => cases hx
          | last =>
              cases hx
              exact ⟨rfl, Nat.le_add_right ..⟩
          | @aside next left hleft hpending =>
              have hle := hleft.length_le
              obtain ⟨hnone, hlen⟩ := ih left.length (by omega) hx.symm rfl
              rw [hpending] at hlen
              exact ⟨hnone, by omega⟩
          | @operand o more _ hpending =>
              obtain ⟨hnone, hlen⟩ := ih rest.length (by omega) hx.symm rfl
              rw [hpending, List.length_cons]
              exact ⟨hnone, by simp only at hlen; omega⟩
          | @pair next o other left hrest hpending =>
              subst hrest
              rw [List.length_cons] at hn
              obtain ⟨hnone, hlen⟩ := ih left.length (by omega) hx.symm rfl
              rw [hpending, List.length_cons]
              exact ⟨hnone, by omega⟩

theorem readTokens_eq_error {stop : Stop} (hc : c.children = []) (hversion : .version ∉ c.options)
    (howns : ∀ t ∈ tokens, c.Owns t) (h : c.readTokens s tokens = .error stop) :
    stop = .help c ∨ ∃ p, stop = .problem c p := by
  induction hn : tokens.length using Nat.strongRecOn generalizing s tokens with
  | _ n ih =>
      cases tokens with
      | nil => cases h
      | cons first rest =>
          rw [List.length_cons] at hn
          obtain ⟨hfirst, hrest⟩ := List.forall_mem_cons.1 howns
          have hturn := readTokens_turn hc s first rest
          rw [h] at hturn
          generalize hx : Except.error stop = x at hturn
          cases hturn with
          | stop hstop =>
              cases hx
              exact hstop hfirst hversion
          | last => cases hx
          | @aside next left hleft _ =>
              have hle := hleft.length_le
              exact ih left.length (by omega) (fun t ht => hrest t (hleft.subset ht)) hx.symm rfl
          | operand => exact ih rest.length (by omega) hrest hx.symm rfl
          | @pair next o other left hleft _ =>
              subst hleft
              rw [List.length_cons] at hn
              exact ih left.length (by omega) (fun t ht => hrest t (List.mem_cons_of_mem _ ht)) hx.symm rfl

/-- As many tokens as operands fill these only if each of them is an operand. -/
theorem readTokens_filled (hc : c.children = []) (hlen : tokens.length = s.pending.length)
    (h : c.readTokens s tokens = .ok (t, chosen)) (hfilled : t.pending = []) :
    (∀ t ∈ tokens, t.role = .operand) ∧ t = { s with
      operands := s.operands ++ List.zipWith (fun (o : Operand) (t : Token) =>
        (o, if t.text = ['-', '-'] then none else some t.text)) s.pending tokens
      pending := [] } := by
  induction tokens generalizing s with
  | nil =>
      cases h
      refine ⟨by simp, ?_⟩
      obtain ⟨options, operands, pending, extras⟩ := t
      subst hfilled
      simp
  | cons first rest ih =>
      rw [List.length_cons] at hlen
      have hturn := readTokens_turn hc s first rest
      rw [h] at hturn
      generalize hx : Except.ok (t, chosen) = x at hturn
      cases hturn with
      | stop => cases hx
      | last _ _ hne =>
          cases hx
          exact absurd hfilled hne
      | @aside next left hleft hpending =>
          have hle := hleft.length_le
          obtain ⟨-, hcount⟩ := readTokens_pending hc hx.symm
          rw [hpending, hfilled, List.length_nil] at hcount
          omega
      | @operand o more hrole hpending =>
          rw [hpending, List.length_cons] at hlen
          obtain ⟨hroles, ht⟩ := ih (Nat.succ.inj hlen) hx.symm
          refine ⟨List.forall_mem_cons.2 ⟨hrole, hroles⟩, ?_⟩
          rw [ht, hpending]
          simp
      | @pair next o other left hleft hpending =>
          subst hleft
          obtain ⟨-, hcount⟩ := readTokens_pending hc hx.symm
          rw [hpending, List.length_cons, List.length_cons] at hlen
          rw [hfilled, List.length_nil] at hcount
          omega

theorem read_leaf (hc : c.children = []) (words : List Text) :
    c.read words = (c.tokens words).mapError (.problem c) >>= fun tokens =>
      c.readTokens { pending := c.operands } tokens >>= fun (progress, _) =>
        if progress.pending.isEmpty then .ok ⟨c, progress.options, progress.operands, progress.extras⟩
        else .error (.problem c (.missingOperands progress.pending)) := by
  rw [Command.read]
  congr 1
  funext tokens
  cases h : c.readTokens { pending := c.operands } tokens with
  | error stop => rfl
  | ok result =>
      obtain ⟨progress, chosen⟩ := result
      obtain ⟨rfl, -⟩ := readTokens_pending hc h
      rfl

theorem readTokens_child (hc : c.children ≠ []) (s : Progress) (word : Text) (rest : List Token) :
    c.readTokens s (⟨word, .operand⟩ :: rest) = .ok (s, some (word :: rest.map Token.text)) := by
  have hempty : ¬ c.children.isEmpty = true := by simpa using hc
  rw [Command.readTokens]
  dsimp only
  rw [if_neg hempty]
  rfl

theorem read_eq_error {words : List Text} {stop : Stop} (htokens : c.tokens words = .ok tokens)
    (hread : c.readTokens { pending := c.operands } tokens = .error stop) : c.read words = .error stop := by
  rw [Command.read, htokens]
  simp only [mapError_ok, hread, bind, Except.bind]

theorem read_eq_problem {words : List Text} {p : Problem} (htokens : c.tokens words = .error p) :
    c.read words = .error (.problem c p) := by
  rw [Command.read, htokens]
  rfl

theorem read_child {d : Command} {word : Text} {words rest : List Text}
    (hd : c.children.find? (·.word == word) = some d) (htokens : c.tokens words = .ok tokens)
    (hread : c.readTokens { pending := c.operands } tokens = .ok (s, some (word :: rest))) :
    c.read words = d.read rest >>= fun inner =>
      .ok { inner with options := inner.options ++ s.options, extras := s.extras ++ inner.extras } := by
  rw [Command.read, htokens]
  simp only [mapError_ok, hread, bind, Except.bind]
  split
  · next hnone => rw [hd] at hnone; cases hnone
  · next e hsome =>
      rw [hd] at hsome
      cases hsome
      rfl

end Command

end ComponentCatalog.CommandLine
