import ComponentCatalog.Proofs.Readers
import ComponentCatalog.Script.Functions

/-!
# Keywords as whole words

Blanks set every keyword of a script apart from what follows it, except for `function`: a longer word that
begins with it is read as a function with the rest of the word for its name. Every other word is called
without declaring a function, and exported under its own name.
-/

namespace ComponentCatalog

open Reader

variable {α : Type} {c : Char} {t u r : Text} {previous : Option Char}

/-- No blank is in a text. -/
def Unbroken (t : Text) : Prop := ∀ c ∈ t, isBlank c = false

instance : Decidable (Unbroken t) := List.decidableBAll _ t

theorem Unbroken.suffix (h : Unbroken t) (hu : u <:+ t) : Unbroken u := fun c hc => h c (hu.mem hc)

theorem Word.unbroken_append (w : Word) (h : Unbroken t) : Unbroken (w.text ++ t) := fun c hc =>
  (List.mem_append.1 hc).elim (fun hw => isBlank_of_isWord (w.word c hw)) (h c)

/-! ## The word `function` -/

theorem functionWord_append (h : Stops (fun c => isBlank c || c == '*') t) :
    functionWord ("function" ++ t) = some ((), t) := by
  have hblank : t.dropWhile isBlank = t :=
    Stops.dropWhile_eq fun c hc => (Bool.or_eq_false_iff.1 (h c hc)).1
  have hstar : lit "*" t = none := by
    refine lit_eq_none fun r heq => ?_
    have hc := h '*' (by simp [heq])
    exact absurd hc (by decide)
  have hopt : opt (lit "*") t = some (none, t) := by
    rw [opt, orElse_apply, map_apply, hstar]
    rfl
  have hdiscard : discard (opt (lit "*")) t = some ((), t) := by
    rw [discard_apply, hopt]
    rfl
  simp only [functionWord, bind_apply, lit_append, Option.bind_some, blanks_apply, hblank, hdiscard]

theorem functionWord_eq_none (h : ∀ r, t ≠ "function".toList ++ r) : functionWord t = none := by
  rw [functionWord, bind_apply, lit_eq_none h]
  rfl

theorem functionWord_word (n : Word) (t : Text) :
    functionWord ("function" ++ (n.text ++ t)) = some ((), n.text ++ t) := by
  refine functionWord_append (n.stops (fun c hword => ?_) t)
  refine Bool.or_eq_false_iff.2 ⟨isBlank_of_isWord hword, beq_eq_false_iff_ne.2 ?_⟩
  rintro rfl
  exact absurd hword (by decide)

/-- A word at the front of a text that begins with `u` begins with `u` itself. -/
theorem exists_of_append_eq {w : Text} (hu : ∀ c ∈ u, isWord c = true) (ht : Stops isWord t)
    (h : w ++ t = u ++ r) : ∃ n, w = u ++ n := by
  rcases List.append_eq_append_iff.1 h with ⟨n, hun, htn⟩ | ⟨n, hwn, -⟩
  · cases n with
    | nil => exact ⟨[], by simpa using hun.symm⟩
    | cons d n =>
        have hd := Stops.cons_iff.1 (htn ▸ ht : Stops isWord (d :: n ++ r))
        rw [hu d (by simp [hun])] at hd
        cases hd
  · exact ⟨n, hwn⟩

/-! ## Calls -/

namespace Functions

/-- The word `function`, the name of a function and the parenthesis behind it. -/
def functionHead : Reader Text := do
  functionWord
  word <* blanks <* lit "("

theorem functionHead_eq_none (h : ∀ r, t ≠ "function".toList ++ r) : functionHead t = none := by
  rw [functionHead, bind_apply, functionWord_eq_none h]
  rfl

theorem arrow_eq_none (ht : Unbroken t) : arrow previous t = none := by
  have hassignment : assignment t = none := by
    simp only [assignment, bind_apply, orElse_apply, keyword_eq_none _ ht]
    rfl
  rw [arrow, when_bind_apply, orElse_apply, bind_apply, keyword_eq_none _ ht, bind_apply, hassignment]
  exact ite_self none

/-- Without a blank, a function begins with the word `function`. -/
theorem declared_eq (ht : Unbroken t) : declared previous t =
    if beginsWord previous then (functionHead t).map fun p => (⟨p.1, .declared, false⟩, p.2) else none := by
  have hexport : exportWords previous t = none := by
    rw [exportWords, when_bind_apply, bind_apply, keyword_eq_none _ ht]
    exact ite_self none
  have hasync : opt (keyword "async") t = some (none, t) := by
    rw [opt, orElse_apply, map_apply, keyword_eq_none _ ht]
    rfl
  have hname : declaredName previous t = if beginsWord previous then functionHead t else none := by
    rw [declaredName, bind_apply, hasync]
    exact when_bind_apply ..
  rw [declared, orElse_apply, bind_apply, hexport, Option.bind_none, Option.none_or, bind_apply, hname]
  split
  · cases functionHead t <;> rfl
  · rfl

theorem declared_inside (ht : Unbroken t) (hc : isWord c = true) : declared (some c) t = none := by
  rw [declared_eq ht, if_neg (by simp [beginsWord, hc])]

/-- Nothing but the word `function` at its front makes an unbroken text a function. -/
theorem declared_eq_none (ht : Unbroken t) (h : ∀ r, t ≠ "function".toList ++ r) :
    declared previous t = none := by
  rw [declared_eq ht, functionHead_eq_none h]
  exact ite_self none

/-- The places inside of a word are none for a function. -/
theorem occurrences_word (w : Word) (ht : Unbroken t) (hfirst : declared none (w.text ++ t) = none) :
    occurrences declared (w.text ++ t) = occurrencesFrom declared w.text.getLast? 0 t := by
  rw [occurrences, occurrencesFrom_append, Option.or_none]
  intro u c v hw
  rw [Option.or_none]
  cases hu : u.getLast? with
  | none =>
      obtain rfl := List.getLast?_eq_none_iff.1 hu
      rw [List.nil_append] at hw
      rwa [← List.cons_append, ← hw]
  | some d =>
      have hd : d ∈ w.text := hw ▸ List.mem_append_left _ (List.mem_of_getLast? hu)
      have hunbroken := (w.unbroken_append ht).suffix (u := c :: (v ++ t)) ⟨u, by simp [hw]⟩
      exact declared_inside hunbroken (w.word d hd)

theorem occurrences_tail (ht : Unbroken t) (hf : 'f' ∉ t) (previous : Option Char) :
    occurrencesFrom declared previous 0 t = [] := by
  refine occurrencesFrom_eq_nil fun previous u hu => declared_eq_none (ht.suffix hu) ?_
  rintro r rfl
  have hmem : 'f' ∈ "function".toList := by decide
  exact hf (hu.mem (List.mem_append_left r hmem))

end Functions

open Functions

/-- What stands behind the name of the function in a call. -/
def callRest : Text := "(x);"

theorem unbroken_callRest : Unbroken callRest := by decide

theorem stops_callRest : Stops isWord callRest := Stops.cons_iff.2 (by decide)

theorem arrows_call (w : Word) : occurrences arrow (w.text ++ callRest) = [] :=
  occurrencesFrom_eq_nil fun _ _ hu => arrow_eq_none ((w.unbroken_append unbroken_callRest).suffix hu)

theorem functions_call (w : Word) (h : functionHead (w.text ++ callRest) = none) :
    functions (w.text ++ callRest) = [] := by
  have hfirst : declared none (w.text ++ callRest) = none := by
    rw [declared_eq (w.unbroken_append unbroken_callRest), h]
    exact ite_self none
  rw [functions, arrows_call, occurrences_word w unbroken_callRest hfirst,
    occurrences_tail unbroken_callRest (by decide)]
  rfl

theorem functionHead_word (n : Word) :
    functionHead ("function" ++ (n.text ++ callRest)) = some (n.text, "x);".toList) := by
  have hname : (word <* blanks) (n.text ++ callRest) = some (n.text, callRest) := by
    rw [seqLeft_apply, word_append n stops_callRest]
    rfl
  rw [functionHead, bind_apply, functionWord_word, Option.bind_some, seqLeft_apply, hname]
  rfl

/-- The call of a longer word that begins with `function` declares a function. -/
theorem functions_call_function (w n : Word) (hw : w.text = "function" ++ n.text) :
    functions (w.text ++ callRest) = [⟨n.text, .declared, false⟩] := by
  have hunbroken := w.unbroken_append unbroken_callRest
  have hcall : w.text ++ callRest = (w.text ++ ['(']) ++ "x);" := by simp [callRest]
  have hfirst : declared none (w.text ++ callRest) = some (⟨n.text, .declared, false⟩, "x);".toList) := by
    rw [declared_eq hunbroken, hw, List.append_assoc, functionHead_word]
    rfl
  rw [functions, arrows_call, List.append_nil]
  rw [hcall] at hfirst ⊢
  rw [occurrences, occurrencesFrom_read (List.append_ne_nil_of_left_ne_nil w.ne_nil _) hfirst,
    occurrences_tail (by decide) (by decide)]

/-! ## Default exports -/

/-- The name behind the words `export default`. -/
def defaultName : Reader Text := functionWord *> word <|> keyword "class" *> word <|> word

/-- The default export of a word. -/
def defaultOf (w : Text) : Text := "export default " ++ (w ++ ";")

theorem exportList_eq_none (ht : '\x7b' ∉ t) : exportList previous t = none := by
  rw [exportList, when_bind_apply, bind_apply]
  cases hread : lit "export" t with
  | none => exact ite_self none
  | some p =>
      have hbrace : lit "\x7b" (p.2.dropWhile isBlank) = none := by
        refine lit_eq_none fun r heq => ht ?_
        have hmem : '\x7b' ∈ p.2 := (List.dropWhile_sublist isBlank).mem (by simp [heq])
        exact lit_eq_some_iff.1 hread ▸ List.mem_append_right _ hmem
      rw [Option.bind_some, bind_apply, blanks_apply, Option.bind_some, bind_apply, hbrace]
      exact ite_self none

theorem directExport_eq_none (ht : Unbroken t) : directExport previous t = none := by
  rw [directExport, when_bind_apply, bind_apply, keyword_eq_none _ ht]
  exact ite_self none

theorem directExports_default (w : Word) : occurrences directExport (defaultOf w.text) = [] := by
  have hsemicolon : Unbroken (w.text ++ ";") := w.unbroken_append (by decide)
  have hfront : occurrences directExport (defaultOf w.text) =
      occurrencesFrom directExport (some ' ') 0 (w.text ++ ";") := rfl
  rw [hfront]
  exact occurrencesFrom_eq_nil fun _ _ hu => directExport_eq_none (hsemicolon.suffix hu)

theorem defaultExport_default (w : Word) :
    defaultExport none (defaultOf w.text) = defaultName (w.text ++ ";") := by
  have hunbroken : Unbroken (w.text ++ ";") := w.unbroken_append (by decide)
  have hstops : Stops isBlank (w.text ++ ";") := fun c hc => hunbroken c (List.mem_of_mem_head? hc)
  have hexport : keyword "export" (defaultOf w.text) = some ((), "default " ++ (w.text ++ ";")) :=
    keyword_space "export" (Stops.cons_iff.2 (by decide))
  have hdefault : keyword "default" ("default " ++ (w.text ++ ";")) = some ((), w.text ++ ";") :=
    keyword_space "default" hstops
  rw [defaultExport, when_bind_apply, if_pos (by rfl), bind_apply, hexport, Option.bind_some, bind_apply, hdefault,
    Option.bind_some, maybeAsync, orElse_apply, seqRight_apply, keyword_eq_none _ hunbroken]
  rfl

theorem exports_default (w : Word) {name rest : Text} (h : defaultName (w.text ++ ";") = some (name, rest)) :
    exports (defaultOf w.text) = ["default: " ++ name] := by
  have hbrace : '\x7b' ∉ defaultOf w.text := by
    have hkeywords : '\x7b' ∉ "export default ".toList := by decide
    have hword : '\x7b' ∉ w.text := fun hmem => absurd (w.word _ hmem) (by decide)
    have hsemicolon : '\x7b' ∉ ";".toList := by decide
    intro hmem
    rcases List.mem_append.1 hmem with hmem | hmem
    · exact hkeywords hmem
    · exact (List.mem_append.1 hmem).elim hword hsemicolon
  have hlists : occurrences exportList (defaultOf w.text) = [] :=
    occurrencesFrom_eq_nil fun _ _ hu => exportList_eq_none fun hmem => hbrace (hu.mem hmem)
  have hfirst : first? defaultExport (defaultOf w.text) = some (name, rest) := by
    have hread := (defaultExport_default w).trans h
    have hcons : defaultOf w.text = 'e' :: ("xport default " ++ (w.text ++ ";")) := rfl
    rw [hcons] at hread ⊢
    rw [first?, firstFrom?, hread, Option.some_or]
  rw [exports, hlists, directExports_default, hfirst]
  rfl

theorem defaultName_word (w : Word) (h : (functionWord *> word) (w.text ++ ";") = none) :
    defaultName (w.text ++ ";") = some (w.text, ";".toList) := by
  have hsemicolon : Stops isWord ";" := Stops.cons_iff.2 (by decide)
  have hclass : keyword "class" (w.text ++ ";") = none := keyword_eq_none _ (w.unbroken_append (by decide))
  rw [defaultName, orElse_apply, h, Option.none_or, orElse_apply, seqRight_apply, hclass,
    word_append w hsemicolon]
  rfl

theorem defaultName_function (n : Word) :
    defaultName ("function" ++ (n.text ++ ";")) = some (n.text, ";".toList) := by
  have hsemicolon : Stops isWord ";" := Stops.cons_iff.2 (by decide)
  rw [defaultName, orElse_apply, seqRight_apply, functionWord_word, Option.bind_some, word_append n hsemicolon]
  rfl

/-! ## Whole words -/

/-- A word that does not go on behind `function` is no function in front of a character of no word. -/
theorem function_word_eq_none (w : Word) (hw : ¬ ∃ n : Word, w.text = "function" ++ n.text)
    (ht : Stops isWord t) (hblank : Stops (fun c => isBlank c || c == '*') t) :
    (functionWord *> word) (w.text ++ t) = none := by
  by_cases hfunction : ∃ r, w.text ++ t = "function".toList ++ r
  · obtain ⟨r, hr⟩ := hfunction
    obtain ⟨n, hn⟩ := exists_of_append_eq (fun c hc => List.all_eq_true.1 (by decide) c hc) ht hr
    cases n with
    | nil =>
        rw [hn, List.append_nil, seqRight_apply, functionWord_append hblank, Option.bind_some]
        exact word_eq_none ht
    | cons c n =>
        have hword : ∀ d ∈ c :: n, isWord d = true := fun d hd =>
          w.word d (hn ▸ List.mem_append_right _ hd)
        exact absurd ⟨⟨c :: n, List.cons_ne_nil c n, hword⟩, hn⟩ hw
  · rw [seqRight_apply, functionWord_eq_none fun r heq => hfunction ⟨r, heq⟩]
    rfl

theorem functionHead_eq_none_of_word (h : (functionWord *> word) t = none) : functionHead t = none := by
  rw [seqRight_apply] at h
  rw [functionHead, bind_apply]
  cases hread : functionWord t with
  | none => rfl
  | some p =>
      rw [hread, Option.bind_some] at h
      rw [Option.bind_some, seqLeft_apply, seqLeft_apply, h]
      rfl

/-- The call of a word declares no function, and its default export has its name, exactly if it is no
longer word that begins with `function`; else the rest of the word is taken for the name of a function. -/
theorem readsWholeWord_iff (w : Word) :
    (functions (w.text ++ "(x);") = [] ∧
        exports ("export default " ++ (w.text ++ ";")) = ["default: " ++ w.text] ↔
      ¬ ∃ n : Word, w.text = "function" ++ n.text) ∧
    ∀ n : Word, w.text = "function" ++ n.text →
      functions (w.text ++ "(x);") = [⟨n.text, .declared, false⟩] ∧
        exports ("export default " ++ (w.text ++ ";")) = ["default: " ++ n.text] := by
  have hlonger : ∀ n : Word, w.text = "function" ++ n.text →
      functions (w.text ++ callRest) = [⟨n.text, .declared, false⟩] ∧
        exports (defaultOf w.text) = ["default: " ++ n.text] := by
    intro n hn
    have hname : defaultName (w.text ++ ";") = some (n.text, ";".toList) := by
      rw [hn, List.append_assoc, defaultName_function]
    exact ⟨functions_call_function w n hn, exports_default w hname⟩
  refine ⟨⟨fun hwhole hn => ?_, fun hw => ?_⟩, hlonger⟩
  · obtain ⟨n, hn⟩ := hn
    exact absurd (hwhole.1.symm.trans (hlonger n hn).1) (by simp)
  · refine ⟨functions_call w (functionHead_eq_none_of_word ?_), exports_default w (defaultName_word w ?_)⟩
    · exact function_word_eq_none w hw stops_callRest (Stops.cons_iff.2 (by decide))
    · exact function_word_eq_none w hw (Stops.cons_iff.2 (by decide)) (Stops.cons_iff.2 (by decide))

example : functions "functionality(x);" = [⟨"ality", .declared, false⟩] := by decide +kernel

end ComponentCatalog
