import ComponentCatalog.Proofs.MarkdownLines

/-!
# What sections are cut from a text

The sections of a text can be written again: no content but the last ends inside of a fence, no content
begins a section, and every heading is read as it is written.
-/

namespace ComponentCatalog

namespace Markdown

variable {line : Text} {f g : Bool} {ls rest : List Text} {h : Heading}

/-! ## The lines between two headings -/

/-- The lines at which sections begin. -/
def openings (inFence : Bool) : List Text → List Text
  | [] => []
  | line :: rest =>
    if (inFence != isFence line) || (sectionHeading? line).isNone then
      openings (inFence != isFence line) rest
    else line :: openings false rest

theorem isFence_of_sectionHeading? (hl : sectionHeading? line = some h) : isFence line = false := by
  obtain ⟨hheading, -⟩ := Option.filter_eq_some_iff.1 hl
  obtain ⟨c, r, rfl, -, hlevel, -⟩ := exists_of_heading? hheading
  obtain ⟨n, hn⟩ := Nat.exists_eq_add_of_le' hlevel
  rw [hn, List.replicate_succ]
  rfl

theorem splitSections_append (hf : fenceAfter? f ls = some g) (rest : List Text) :
    splitSections f (ls ++ rest) = (ls ++ (splitSections g rest).1, (splitSections g rest).2) := by
  induction ls generalizing f with
  | nil =>
      obtain rfl : f = g := Option.some.inj hf
      rfl
  | cons line ls ih =>
      rw [fenceAfter?] at hf
      split at hf
      · next hbody =>
          have hnone : (if (f != isFence line) = true then none else sectionHeading? line) = none := by
            rw [Bool.or_eq_true] at hbody
            rcases hbody with hbody | hbody
            · rw [if_pos hbody]
            · rw [Option.isNone_iff_eq_none.1 hbody, ite_self]
          rw [List.cons_append, splitSections]
          simp only [hnone, ih hf, List.cons_append]
      · cases hf

theorem splitSections_of_fenceAfter? (hf : fenceAfter? f ls = some g) : splitSections f ls = (ls, []) := by
  have hsplit := splitSections_append hf []
  rwa [List.append_nil, splitSections, List.append_nil] at hsplit

theorem splitSections_heading (hl : sectionHeading? line = some h) (rest : List Text) :
    splitSections false (line :: rest) =
      ([], ⟨h.title, contentOf (splitSections false rest).1, h.level⟩ :: (splitSections false rest).2) := by
  rw [splitSections]
  simp [isFence_of_sectionHeading? hl, hl]

/-- Either no section begins in lines, or they have a first heading. -/
theorem exists_heading (f : Bool) (ls : List Text) :
    (∃ g, fenceAfter? f ls = some g) ∨
      ∃ body line h rest, ls = body ++ line :: rest ∧ fenceAfter? f body = some false ∧
        sectionHeading? line = some h ∧ openings f ls = line :: openings false rest := by
  induction ls generalizing f with
  | nil => exact .inl ⟨f, rfl⟩
  | cons line ls ih =>
      cases hbody : (f != isFence line) || (sectionHeading? line).isNone with
      | true =>
          rcases ih (f != isFence line) with ⟨g, hg⟩ | ⟨body, line', h, rest, rfl, hg, hl, hopen⟩
          · exact .inl ⟨g, by rw [fenceAfter?, if_pos hbody, hg]⟩
          · refine .inr ⟨line :: body, line', h, rest, rfl, ?_, hl, ?_⟩
            · rw [fenceAfter?, if_pos hbody, hg]
            · rw [openings, if_pos hbody, hopen]
      | false =>
          obtain ⟨hfence, hhead⟩ := Bool.or_eq_false_iff.1 hbody
          obtain ⟨h, hl⟩ := Option.isSome_iff_exists.1 (Option.isNone_eq_false_iff.1 hhead)
          rw [isFence_of_sectionHeading? hl, Bool.bne_false] at hfence
          subst hfence
          exact .inr ⟨[], line, h, ls, rfl, rfl, hl, by rw [openings, if_neg (by rw [hbody]; simp)]⟩

/-- The lines before the first section end outside of a fence, if there is a section. -/
theorem exists_fenceAfter?_body (ls : List Text) :
    ∃ g, fenceAfter? false (splitSections false ls).1 = some g ∧
      ((splitSections false ls).2 ≠ [] → g = false) ∧ (splitSections false ls).1.Sublist ls := by
  rcases exists_heading false ls with ⟨g, hg⟩ | ⟨body, line, h, rest, rfl, hbody, hl, -⟩
  · rw [splitSections_of_fenceAfter? hg]
    exact ⟨g, hg, fun hne => absurd rfl hne, .refl _⟩
  · rw [splitSections_append hbody, splitSections_heading hl, List.append_nil]
    exact ⟨false, hbody, fun _ => rfl, List.sublist_append_left ..⟩

/-! ## Headings that are read as they are written -/

/-- A line that ends with two runs of marks, each after blanks. -/
def DoublyClosed (line : Text) : Prop :=
  ∃ front gap marks gap' marks' tail, line = front ++ gap ++ marks ++ gap' ++ marks' ++ tail ∧
    (∀ c ∈ gap ++ gap' ++ tail, isBlank c = true) ∧ (∀ c ∈ marks ++ marks', c = '#') ∧
    gap ≠ [] ∧ gap' ≠ [] ∧ marks ≠ [] ∧ marks' ≠ []

theorem headingTitle_isPrefix (t : Text) : headingTitle t <+: t := by
  have htrim : Text.trimRight t <+: t := List.rdropWhile_prefix ..
  simp only [headingTitle]
  split
  · refine List.IsPrefix.trans ?_ htrim
    exact (List.rdropWhile_prefix ..).trans (List.rdropWhile_prefix ..)
  · exact htrim

theorem trimRight_headingTitle (t : Text) : Text.trimRight (headingTitle t) = headingTitle t := by
  simp only [headingTitle]
  split <;> exact Text.trimRight_trimRight _

theorem headingTitle_trimRight (t : Text) : headingTitle (Text.trimRight t) = headingTitle t := by
  simp only [headingTitle, Text.trimRight_trimRight]

/-- A title is closed by marks after blanks, which are no part of it, or it is all of the text. -/
theorem headingTitle_cases (t : Text) :
    headingTitle t = Text.trimRight t ∨
      ∃ gap marks, Text.trimRight t = headingTitle t ++ gap ++ marks ∧
        (∀ c ∈ gap, isBlank c = true) ∧ (∀ c ∈ marks, c = '#') ∧ gap ≠ [] ∧ marks ≠ [] := by
  obtain ⟨marks, hmarks, hall⟩ := Text.exists_dropEndWhile (· == '#') (Text.trimRight t)
  simp only [headingTitle]
  generalize Text.dropEndWhile (· == '#') (Text.trimRight t) = unmarked at hmarks
  split
  · next hclosed =>
      simp only [Bool.and_eq_true, decide_eq_true_eq] at hclosed
      obtain ⟨gap, hgap, hblank⟩ := Text.exists_dropEndWhile isBlank unmarked
      refine .inr ⟨gap, marks, ?_, hblank, by simpa using hall, ?_, ?_⟩
      · rw [hmarks]
        exact congrArg (· ++ marks) hgap
      · rintro rfl
        obtain ⟨hsome, hlast⟩ := (Option.any_eq_true_iff_get ..).1 hclosed.2
        have htrimmed : Text.trimRight unmarked = unmarked := by
          rw [List.append_nil] at hgap
          exact hgap.symm
        rw [Text.getLast?_of_trimRight htrimmed _ (Option.get_mem hsome)] at hlast
        cases hlast
      · rintro rfl
        simp [hmarks] at hclosed
  · exact .inl rfl

theorem headingTitle_of_not_doublyClosed {u front : Text} (h : ¬ DoublyClosed (front ++ u)) :
    headingTitle (headingTitle u) = headingTitle u := by
  rcases headingTitle_cases u with hu | ⟨gap', marks', hu, hblank', hmarks', hgap', hne'⟩
  · rw [hu, headingTitle_trimRight, hu]
  · rcases headingTitle_cases (headingTitle u) with htitle | ⟨gap, marks, htitle, hblank, hmarks, hgap, hne⟩
    · rw [htitle, trimRight_headingTitle]
    · obtain ⟨tail, htail, hblank''⟩ := Text.exists_dropEndWhile isBlank u
      rw [trimRight_headingTitle] at htitle
      refine absurd ⟨front ++ headingTitle (headingTitle u), gap, marks, gap', marks', tail, ?_, ?_, ?_,
        hgap, hgap', hne, hne'⟩ h
      · have hall : u = Text.trimRight u ++ tail := htail
        rw [hu, htitle] at hall
        simpa using congrArg (front ++ ·) hall
      · simpa [or_imp, forall_and] using ⟨hblank, hblank', hblank''⟩
      · simpa [or_imp, forall_and] using ⟨hmarks, hmarks'⟩

theorem trimRight_append_marks {marks : Text} (hmarks : ∀ c ∈ marks, c = '#') (hne : marks ≠ [])
    (t : Text) : Text.trimRight (t ++ marks) = t ++ marks := by
  obtain ⟨marks, c, rfl⟩ := (List.eq_nil_or_concat' marks).resolve_left hne
  obtain rfl : c = '#' := hmarks c (by simp)
  rw [← List.append_assoc, Text.trimRight_concat (by decide)]

theorem headingTitle_append {t gap marks tail : Text} (hgap : ∀ c ∈ gap, isBlank c = true)
    (hmarks : ∀ c ∈ marks, c = '#') (htail : ∀ c ∈ tail, isBlank c = true) (hne : gap ≠ [])
    (hne' : marks ≠ []) : headingTitle (t ++ gap ++ marks ++ tail) = Text.trimRight t := by
  have htrim : Text.trimRight (t ++ gap ++ marks ++ tail) = t ++ gap ++ marks := by
    rw [Text.trimRight_append_blank htail, trimRight_append_marks hmarks hne']
  obtain ⟨gap, b, rfl⟩ := (List.eq_nil_or_concat' gap).resolve_left hne
  have hb : isBlank b = true := hgap b (by simp)
  have hunmark : Text.dropEndWhile (· == '#') (t ++ (gap ++ [b]) ++ marks) = t ++ (gap ++ [b]) := by
    rw [Text.dropEndWhile_append_of_all (by simpa using hmarks), ← List.append_assoc]
    exact List.rdropWhile_concat_neg _ _ _ (by simpa using ne_mark_of_blank hb)
  have hlen : 0 < marks.length := List.length_pos_iff.2 hne'
  simp only [headingTitle, htrim, hunmark]
  rw [if_pos (by simp [hb, hlen]), Text.trimRight_append_blank hgap]

theorem doublyClosed_iff : DoublyClosed line ↔ headingTitle (headingTitle line) ≠ headingTitle line := by
  constructor
  · rintro ⟨front, gap, marks, gap', marks', tail, rfl, hblank, hmarks, hgap, hgap', hne, hne'⟩
    simp only [List.mem_append, or_imp, forall_and] at hblank hmarks
    obtain ⟨⟨hblank, hblank'⟩, htail⟩ := hblank
    have hinner : headingTitle (front ++ gap ++ marks ++ []) = Text.trimRight front :=
      headingTitle_append hblank hmarks.1 (by simp) hgap hne
    rw [List.append_nil] at hinner
    rw [headingTitle_append hblank' hmarks.2 htail hgap' hne', trimRight_append_marks hmarks.1 hne, hinner]
    intro heq
    have hlen := congrArg List.length heq
    have hle : (Text.trimRight front).length ≤ front.length := (List.rdropWhile_prefix ..).length_le
    have hpos : 0 < gap.length := List.length_pos_iff.2 hgap
    simp only [List.length_append] at hlen
    omega
  · intro hne
    by_contra hclosed
    have hfront : ¬ DoublyClosed ([] ++ line) := hclosed
    exact hne (headingTitle_of_not_doublyClosed hfront)

instance : Decidable (DoublyClosed line) := decidable_of_iff' _ doublyClosed_iff

/-- A title does not begin with a blank. -/
theorem dropWhile_title (hl : heading? line = some h) : h.title.dropWhile isBlank = h.title := by
  obtain ⟨c, r, -, -, -, -, heq⟩ := exists_of_heading? hl
  obtain ⟨rest, hrest⟩ := headingTitle_isPrefix (r.dropWhile isBlank)
  rw [← heq] at hrest
  refine List.dropWhile_eq_self_iff.2 fun hlen hblank => ?_
  have hfirst := List.dropWhile_eq_self_iff.1 (List.dropWhile_idempotent isBlank r)
  simp only [← hrest] at hfirst
  refine hfirst (by simp; omega) ?_
  rwa [List.getElem_append_left hlen]

/-- The line of a heading. -/
def Heading.written (h : Heading) : Text := List.replicate h.level '#' ++ ' ' :: h.title

theorem sectionHeading?_written (hl : sectionHeading? line = some h) (hclosed : ¬ DoublyClosed line) :
    sectionHeading? h.written = some h := by
  obtain ⟨hheading, htitle⟩ := Option.filter_eq_some_iff.1 hl
  obtain ⟨c, r, rfl, hc, hlow, hhigh, heq⟩ := exists_of_heading? hheading
  have hread : headingTitle h.title = h.title := by
    obtain ⟨gap, hgap⟩ := List.dropWhile_suffix isBlank (l := r)
    rw [← hgap, ← List.cons_append, ← List.append_assoc] at hclosed
    rw [heq]
    exact headingTitle_of_not_doublyClosed hclosed
  rw [sectionHeading?, Heading.written, heading?_marks (by decide), dropWhile_title hheading, hread,
    if_pos ⟨hlow, hhigh, by decide⟩, Option.filter_eq_some_iff]
  exact ⟨rfl, htitle⟩

/-! ## Contents -/

theorem fenceAfter?_contentOf (hends : ∀ line ∈ ls, ∀ c ∈ line, isLineEnd c = false)
    (hindent : ∀ line ∈ ls, ¬ Indented line) :
    fenceAfter? f (Text.pieces '\n' (contentOf ls)) = fenceAfter? f ls := by
  by_cases hne : ls = []
  · subst hne
    exact fenceAfter?_blank f []
  · have hpieces : Text.pieces '\n' (Text.join ['\n'] ls) = ls := by
      refine Text.pieces_join hne fun line hline hmem => ?_
      exact absurd (hends line hline '\n' hmem) (by decide)
    rw [contentOf, fenceAfter?_trim (hpieces.symm ▸ hindent), hpieces]

theorem contentOf_pieces {t : Text} (ht : Text.trim t = t) :
    contentOf ([] :: Text.pieces '\n' t) = t := by
  rw [contentOf, Text.join_cons _ _ (Text.pieces_ne_nil '\n' t), Text.join_pieces]
  exact (Text.trim_cons_blank (by decide) t).trans ht

theorem contentOf_pieces_concat {t : Text} (ht : Text.trim t = t) :
    contentOf ([] :: (Text.pieces '\n' t ++ [[]])) = t := by
  rw [contentOf, Text.join_cons _ _ (by simp), Text.join_append _ (Text.pieces_ne_nil '\n' t) (by simp),
    Text.join_pieces]
  have hend : Text.trim (t ++ ['\n']) = t := (Text.trim_concat_blank (by decide) t).trans ht
  simpa [Text.join] using (Text.trim_cons_blank (c := '\n') (by decide) (t ++ ['\n'])).trans hend

/-! ## What is read of the lines of a content -/

variable {β : Type} {read : Text → Option β}

/-- Blanks around a line change nothing of what is read of it, and of a blank line nothing is read. -/
structure IgnoresBlanks (read : Text → Option β) : Prop where
  nil : read [] = none
  cons : ∀ {c}, isBlank c = true → ∀ line, read (c :: line) = read line
  concat : ∀ {c}, isBlank c = true → ∀ line, read (line ++ [c]) = read line

theorem IgnoresBlanks.dropWhile (hread : IgnoresBlanks read) (t : Text) :
    (Text.pieces '\n' (t.dropWhile isBlank)).filterMap read = (Text.pieces '\n' t).filterMap read := by
  induction t with
  | nil => rfl
  | cons c t ih =>
      rw [List.dropWhile_cons]
      split
      · next hc =>
          rw [ih]
          by_cases hnl : c = '\n'
          · subst hnl
            rw [Text.pieces_cons_sep, List.filterMap_cons_none hread.nil]
          · rw [← Text.consToFirst_pieces hnl]
            cases hp : Text.pieces '\n' t with
            | nil => exact absurd hp (Text.pieces_ne_nil '\n' t)
            | cons line ls => simp only [Text.consToFirst, List.filterMap_cons, hread.cons hc]
      · rfl

theorem IgnoresBlanks.trimRight (hread : IgnoresBlanks read) (t : Text) :
    (Text.pieces '\n' t.trimRight).filterMap read = (Text.pieces '\n' t).filterMap read := by
  induction t using List.reverseRecOn with
  | nil => rfl
  | append_singleton t c ih =>
      cases hc : isBlank c with
      | false => rw [Text.trimRight_concat hc]
      | true =>
          rw [Text.trimRight_concat_blank hc, ih]
          obtain ⟨front, last, hp, hconcat, hnl⟩ := Text.exists_pieces_concat '\n' t
          by_cases h : c = '\n'
          · rw [h, hnl, List.filterMap_append, List.filterMap_cons_none hread.nil]
            simp
          · rw [hconcat c h, hp, List.filterMap_append, List.filterMap_append]
            simp only [List.filterMap_cons, hread.concat hc]

/-- Of a content the same is read as of the lines that it was put together from. -/
theorem IgnoresBlanks.contentOf (hread : IgnoresBlanks read)
    (hends : ∀ line ∈ ls, ∀ c ∈ line, isLineEnd c = false) :
    (Text.pieces '\n' (contentOf ls)).filterMap read = ls.filterMap read := by
  rcases eq_or_ne ls [] with rfl | hne
  · exact List.filterMap_cons_none hread.nil
  have hpieces : Text.pieces '\n' (Text.join ['\n'] ls) = ls := by
    refine Text.pieces_join hne fun line hline hmem => ?_
    exact absurd (hends line hline '\n' hmem) (by decide)
  rw [Markdown.contentOf, Text.trim_eq, hread.trimRight, hread.dropWhile, hpieces]

end Markdown

open Markdown

/-! ## Sections that can be written -/

/-- The only characters of a text that end a line are line feeds. -/
def Text.LineFeeds (t : Text) : Prop := ∀ c ∈ t, isLineEnd c = true → c = '\n'

theorem sections_of_trimRight {t : Text} (hends : t.LineFeeds) (ht : Text.trimRight t = t) :
    sections t = (splitSections false (Text.pieces '\n' t)).2 := by
  by_cases hne : t = []
  · subst hne
    rfl
  · have hlast : t.getLast? ≠ some '\n' := fun h => by
      exact absurd (Text.getLast?_of_trimRight ht '\n' h) (by decide)
    rw [sections, Text.lines_eq_pieces hne hends hlast]

/-- The heading of a section. -/
def Section.heading (s : Section) : Heading := ⟨s.level, s.title⟩

/-- A section whose heading is read as it is written, and whose content is trimmed. -/
structure Section.Stable (s : Section) : Prop where
  heading : sectionHeading? s.heading.written = some s.heading
  oneLine : ∀ c ∈ s.title, isLineEnd c = false
  trimmed : Text.trim s.content = s.content
  lineFeeds : s.content.LineFeeds

/-- Sections in whose contents no section begins and no fence stays open, but for the last one, which may
leave a fence open. -/
def Sealed : List Section → Prop
  | [] => True
  | s :: rest => s.Stable ∧
      (∃ g, fenceAfter? false (Text.pieces '\n' s.content) = some g ∧ (rest ≠ [] → g = false)) ∧ Sealed rest

theorem Sealed.of_append {S T : List Section} (h : Sealed (S ++ T)) : Sealed S ∧ Sealed T := by
  induction S with
  | nil => exact ⟨trivial, h⟩
  | cons s S ih =>
      obtain ⟨hs, ⟨g, hg, hlast⟩, hrest⟩ := h
      obtain ⟨hS, hT⟩ := ih hrest
      exact ⟨⟨hs, ⟨g, hg, fun hne => hlast (by simp [hne])⟩, hS⟩, hT⟩

theorem Sealed.stable {S : List Section} (h : Sealed S) : ∀ s ∈ S, s.Stable := by
  induction S with
  | nil => simp
  | cons s S ih =>
      intro s' hs'
      rcases List.mem_cons.1 hs' with rfl | hs'
      · exact h.1
      · exact ih h.2.2 s' hs'

theorem mem_of_mem_title {line : Text} {h : Heading} (hl : sectionHeading? line = some h) {c : Char}
    (hc : c ∈ h.title) : c ∈ line := by
  obtain ⟨hheading, -⟩ := Option.filter_eq_some_iff.1 hl
  obtain ⟨d, r, rfl, -, -, -, htitle⟩ := exists_of_heading? hheading
  have hr : c ∈ r := by
    rw [htitle] at hc
    exact (List.dropWhile_sublist _).subset ((headingTitle_isPrefix _).subset hc)
  simp [hr]

theorem lineFeeds_contentOf {ls : List Text} (hends : ∀ line ∈ ls, ∀ c ∈ line, isLineEnd c = false) :
    (contentOf ls).LineFeeds := by
  intro c hc hend
  rcases Text.mem_join ((Text.trim_sublist _).subset hc) with hc | ⟨line, hline, hc⟩
  · exact List.mem_singleton.1 hc
  · rw [hends line hline c hc] at hend
    cases hend

theorem stable_of_heading {line : Text} {h : Heading} {body : List Text}
    (hl : sectionHeading? line = some h) (hclosed : ¬ DoublyClosed line)
    (hline : ∀ c ∈ line, isLineEnd c = false) (hbody : ∀ line ∈ body, ∀ c ∈ line, isLineEnd c = false) :
    Section.Stable ⟨h.title, contentOf body, h.level⟩ where
  heading := sectionHeading?_written hl hclosed
  oneLine := fun c hc => hline c (mem_of_mem_title hl hc)
  trimmed := Text.trim_trim _
  lineFeeds := lineFeeds_contentOf hbody

/-- The sections of lines can be written, if no mark is indented and no heading is closed twice. -/
theorem sealed_splitSections {ls : List Text} (hends : ∀ line ∈ ls, ∀ c ∈ line, isLineEnd c = false)
    (hindent : ∀ line ∈ ls, ¬ Indented line) (hclosed : ∀ line ∈ openings false ls, ¬ DoublyClosed line) :
    Sealed (splitSections false ls).2 := by
  induction hn : ls.length using Nat.strong_induction_on generalizing ls with
  | _ n ih =>
      rcases exists_heading false ls with ⟨g, hg⟩ | ⟨body, line, h, rest, rfl, hbody, hl, hopen⟩
      · rw [splitSections_of_fenceAfter? hg]
        trivial
      · rw [splitSections_append hbody, splitSections_heading hl]
        rw [hopen] at hclosed
        have hrest : rest ⊆ body ++ line :: rest := by simp
        obtain ⟨g, hg, hlast, hsub⟩ := exists_fenceAfter?_body rest
        have hcontent : (splitSections false rest).1 ⊆ body ++ line :: rest :=
          List.Subset.trans hsub.subset hrest
        refine ⟨?_, ⟨g, ?_, hlast⟩, ?_⟩
        · exact stable_of_heading hl (hclosed line (by simp)) (hends line (by simp)) fun l hl =>
            hends l (hcontent hl)
        · rw [fenceAfter?_contentOf (fun l hl => hends l (hcontent hl)) fun l hl =>
            hindent l (hcontent hl), hg]
        · refine ih rest.length ?_ (fun l hl => hends l (hrest hl)) (fun l hl => hindent l (hrest hl))
            (fun l hl => hclosed l (by simp [hl])) rfl
          rw [← hn, List.length_append, List.length_cons]
          omega

end ComponentCatalog
