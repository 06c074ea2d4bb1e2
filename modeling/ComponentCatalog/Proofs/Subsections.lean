import ComponentCatalog.Proofs.SectionText

/-!
# Sections with their subsections

The text of a section with its subsections, read again, has just these subsections.
-/

namespace ComponentCatalog

open Markdown

variable {s head : Section} {S : List Section}

namespace Section

/-! ## The heading and the text of one section -/

theorem text_eq (s : Section) : s.text = s.heading.written ++ '\n' :: '\n' :: s.content := by
  simp [text, heading, Heading.written, Text.repeated]

theorem Stable.exists_written (h : s.Stable) : ∃ r, s.heading.written = '#' :: r := by
  obtain ⟨hheading, -⟩ := Option.filter_eq_some_iff.1 h.heading
  obtain ⟨-, -, -, -, hlevel, -⟩ := exists_of_heading? hheading
  obtain ⟨n, hn⟩ := Nat.exists_eq_add_of_le' hlevel
  rw [Heading.written, hn, List.replicate_succ]
  exact ⟨_, rfl⟩

theorem Stable.trimRight_written (h : s.Stable) : Text.trimRight s.heading.written = s.heading.written := by
  obtain ⟨hheading, hne⟩ := Option.filter_eq_some_iff.1 h.heading
  obtain ⟨-, r, -, -, -, -, htitle⟩ := exists_of_heading? hheading
  have htrim : Text.trimRight s.heading.title = s.heading.title := by
    rw [htitle, trimRight_headingTitle]
  have hne : s.heading.title ≠ [] := by simpa using hne
  rw [Heading.written, List.append_cons, Text.trimRight_append, htrim, if_neg hne]

theorem Stable.pieces_written (h : s.Stable) : Text.pieces '\n' s.heading.written = [s.heading.written] := by
  have htitle : '\n' ∉ s.heading.title := fun hmem => absurd (h.oneLine '\n' hmem) (by decide)
  refine Text.pieces_of_notMem ?_
  simp [Heading.written, htitle]

theorem Stable.pieces_text (h : s.Stable) :
    Text.pieces '\n' s.text = s.heading.written :: [] :: Text.pieces '\n' s.content := by
  rw [text_eq, Text.pieces_append, h.pieces_written, Text.pieces_cons_sep]
  rfl

theorem Stable.lineFeeds_text (h : s.Stable) : s.text.LineFeeds := by
  intro c hc hend
  simp only [text_eq, Heading.written, List.mem_append, List.mem_cons, List.mem_replicate] at hc
  rcases hc with (⟨-, rfl⟩ | rfl | hc) | rfl | rfl | hc
  · exact absurd hend (by decide)
  · exact absurd hend (by decide)
  · rw [h.oneLine c hc] at hend
    cases hend
  · rfl
  · rfl
  · exact h.lineFeeds c hc hend

/-! ## Sections one below the other -/

/-- The text of sections, one below the other, without blanks at its end. -/
def written (S : List Section) : Text := Text.trimRight (Text.join "\n\n" (S.map text))

theorem written_singleton (h : s.Stable) :
    written [s] = if s.content = [] then s.heading.written else s.text := by
  show Text.trimRight s.text = _
  rw [text_eq]
  split
  · next hempty =>
      rw [hempty, Text.trimRight_append]
      exact h.trimRight_written
  · next hne =>
      obtain ⟨-, -, -, -, htrim⟩ := Text.exists_cons_of_trim h.trimmed hne
      rw [List.append_cons, List.append_cons, Text.trimRight_append, htrim, if_neg hne]

theorem written_cons (h : written S ≠ []) : written (s :: S) = s.text ++ '\n' :: '\n' :: written S :=
  (Text.trimRight_join_cons h s.text).trans (List.append_assoc ..)

theorem exists_written (h : Sealed S) (hne : S ≠ []) : ∃ r, written S = '#' :: r := by
  induction S with
  | nil => exact absurd rfl hne
  | cons s S ih =>
      obtain ⟨hs, -, hS⟩ := h
      obtain ⟨r, hr⟩ := hs.exists_written
      by_cases hnil : S = []
      · subst hnil
        rw [written_singleton hs, text_eq, hr]
        split
        · exact ⟨r, rfl⟩
        · exact ⟨_, rfl⟩
      · obtain ⟨r', hr'⟩ := ih hS hnil
        rw [written_cons (by simp [hr']), text_eq, hr]
        exact ⟨_, rfl⟩

/-- Sections that can be written are read as they were written. -/
theorem splitSections_written (h : Sealed S) (hne : S ≠ []) :
    splitSections false (Text.pieces '\n' (written S)) = ([], S) := by
  induction S with
  | nil => exact absurd rfl hne
  | cons s S ih =>
      obtain ⟨hs, ⟨g, hg, hlast⟩, hS⟩ := h
      by_cases hnil : S = []
      · subst hnil
        rw [written_singleton hs]
        split
        · next hempty =>
            rw [hs.pieces_written, splitSections_heading hs.heading, splitSections]
            show ([], [(⟨s.title, [], s.level⟩ : Section)]) = _
            rw [← hempty]
        · have hbody : fenceAfter? false ([] :: Text.pieces '\n' s.content) = some g := by
            rw [fenceAfter?_blank, hg]
          rw [hs.pieces_text, splitSections_heading hs.heading, splitSections_of_fenceAfter? hbody,
            contentOf_pieces hs.trimmed]
          rfl
      · obtain ⟨r, hr⟩ := exists_written hS hnil
        obtain rfl := hlast hnil
        have hbody : fenceAfter? false ([] :: (Text.pieces '\n' s.content ++ [[]])) = some false := by
          rw [fenceAfter?_blank, fenceAfter?_append, hg]
          rfl
        have hlines : Text.pieces '\n' (written (s :: S)) =
            s.heading.written :: ([] :: (Text.pieces '\n' s.content ++ [[]]) ++
              Text.pieces '\n' (written S)) := by
          rw [written_cons (by simp [hr]), Text.pieces_append, Text.pieces_cons_sep, hs.pieces_text]
          simp
        rw [hlines, splitSections_heading hs.heading, splitSections_append hbody, ih hS hnil,
          List.append_nil, contentOf_pieces_concat hs.trimmed]
        rfl

theorem lineFeeds_written (h : Sealed S) : (written S).LineFeeds := by
  intro c hc hend
  rcases Text.mem_join ((List.rdropWhile_prefix ..).subset hc) with hc | ⟨t, ht, hc⟩
  · simpa using hc
  · obtain ⟨s, hs, rfl⟩ := List.mem_map.1 ht
    exact (h.stable s hs).lineFeeds_text c hc hend

end Section

/-! ## A section with its subsections -/

section

variable {following : List Section}

/-- The sections at the front of those that follow which are deeper than `head`. -/
def Section.nested (head : Section) (following : List Section) : List Section :=
  following.takeWhile fun s => head.level < s.level

theorem Sealed.nested (h : Sealed following) (head : Section) : Sealed (head.nested following) := by
  rw [← List.takeWhile_append_dropWhile (p := fun s : Section => decide (head.level < s.level))
    (l := following)] at h
  exact h.of_append.1

theorem filter_texts (S : List Section) :
    (S.map Section.text).filter (!·.isEmpty) = S.map Section.text := by
  refine List.filter_eq_self.2 fun t ht => ?_
  obtain ⟨s, -, rfl⟩ := List.mem_map.1 ht
  simp [Section.text_eq]

theorem withSubsections_of_nil (hnested : head.nested following = []) (h : head.Stable) :
    head.withSubsections following = head.content := by
  have htrim : Text.trim (Text.join "\n\n" ([head.content].filter (!·.isEmpty))) = head.content := by
    by_cases hempty : head.content = []
    · rw [hempty]
      rfl
    · simpa [hempty, Text.join] using h.trimmed
  unfold Section.nested at hnested
  simpa [Section.withSubsections, hnested] using htrim

theorem withSubsections_of_content_nil (hempty : head.content = []) {r : Text}
    (hr : Section.written (head.nested following) = '#' :: r) :
    head.withSubsections following = Section.written (head.nested following) := by
  have hparts : (head.content :: (head.nested following).map Section.text).filter (!·.isEmpty) =
      (head.nested following).map Section.text := by
    rw [hempty, List.filter_cons_of_neg (by simp), filter_texts]
  have htrim := Text.trim_of_trimRight_eq_cons (t := Text.join "\n\n" _) hr (by decide)
  exact (congrArg (fun parts => Text.trim (Text.join "\n\n" parts)) hparts).trans htrim

theorem withSubsections_of_ne_nil (hne : head.content ≠ []) (h : head.Stable)
    (hr : Section.written (head.nested following) ≠ []) :
    head.withSubsections following =
      head.content ++ '\n' :: '\n' :: Section.written (head.nested following) := by
  have hparts : (head.content :: (head.nested following).map Section.text).filter (!·.isEmpty) =
      head.content :: (head.nested following).map Section.text := by
    rw [List.filter_cons_of_pos (by simpa using hne), filter_texts]
  have hright : Text.trimRight (Text.join "\n\n" (head.content :: (head.nested following).map Section.text)) =
      head.content ++ '\n' :: '\n' :: Section.written (head.nested following) :=
    (Text.trimRight_join_cons hr head.content).trans (List.append_assoc ..)
  obtain ⟨c, r, hcons, hc, -⟩ := Text.exists_cons_of_trim h.trimmed hne
  have hfirst : ∃ r, head.content ++ '\n' :: '\n' :: Section.written (head.nested following) = c :: r := by
    rw [hcons]
    exact ⟨_, rfl⟩
  obtain ⟨r', hr'⟩ := hfirst
  have htrim := Text.trim_of_trimRight_eq_cons (hright.trans hr') hc
  exact (congrArg (fun parts => Text.trim (Text.join "\n\n" parts)) hparts).trans (htrim.trans hright)

end

/-- Read again, a section with the deeper ones of the sections that follow it has just these. -/
theorem sections_withSubsections_of_sealed {following : List Section} (h : Sealed (head :: following)) :
    sections (head.withSubsections following) = head.nested following := by
  obtain ⟨hhead, ⟨g, hg, hlast⟩, hfollowing⟩ := h
  have hnested := hfollowing.nested head
  by_cases hnil : head.nested following = []
  · have htrim : Text.trimRight head.content = head.content := by
      rcases eq_or_ne head.content [] with hempty | hne
      · rw [hempty]
        rfl
      · obtain ⟨-, -, -, -, htrim⟩ := Text.exists_cons_of_trim hhead.trimmed hne
        exact htrim
    rw [withSubsections_of_nil hnil hhead, sections_of_trimRight hhead.lineFeeds htrim,
      splitSections_of_fenceAfter? hg, hnil]
  · obtain ⟨r, hr⟩ := Section.exists_written hnested hnil
    have hread := Section.splitSections_written hnested hnil
    have hends := Section.lineFeeds_written hnested
    have htrim : Text.trimRight (Section.written (head.nested following)) =
        Section.written (head.nested following) := Text.trimRight_trimRight _
    rcases eq_or_ne head.content [] with hempty | hne
    · rw [withSubsections_of_content_nil hempty hr, sections_of_trimRight hends htrim, hread]
    · have hopen : following ≠ [] := by
        rintro rfl
        exact hnil rfl
      obtain rfl := hlast hopen
      have hbody : fenceAfter? false (Text.pieces '\n' head.content ++ [[]]) = some false := by
        rw [fenceAfter?_append, hg]
        rfl
      rw [withSubsections_of_ne_nil hne hhead (by simp [hr]), sections_of_trimRight]
      · rw [Text.pieces_append, Text.pieces_cons_sep, List.append_cons, splitSections_append hbody, hread]
      · intro c hc hend
        rcases List.mem_append.1 hc with hc | hc
        · exact hhead.lineFeeds c hc hend
        · simp only [List.mem_cons] at hc
          rcases hc with rfl | rfl | hc
          · rfl
          · rfl
          · exact hends c hc hend
      · rw [List.append_cons, List.append_cons, Text.trimRight_append, htrim, if_neg (by simp [hr])]

/-- The documentation that is attached of a section is read as the subsections it was put together from. -/
theorem sections_withSubsections {t : Text} (hindent : ∀ line ∈ t.lines, ¬ Indented line)
    (hclosed : ∀ line ∈ openings false t.lines, ¬ DoublyClosed line) {i : Nat} (hi : i < (sections t).length) :
    sections ((sections t)[i].withSubsections ((sections t).drop (i + 1))) =
      ((sections t).drop (i + 1)).takeWhile fun s => (sections t)[i].level < s.level := by
  have hsealed : Sealed (sections t) :=
    sealed_splitSections (fun _ => Text.isLineEnd_of_mem_lines) hindent hclosed
  rw [← List.take_append_drop i (sections t), List.drop_eq_getElem_cons hi] at hsealed
  exact sections_withSubsections_of_sealed hsealed.of_append.2

/-- A text with a fenced block, sections without content, and titles with marks in them. -/
def guide : Text := Text.join "\n"
  ["Before.", "# Card", "", "A card.", "", "## Props #", "", "```sh", "# no heading", "```", "", "### C# and F#",
    "## Events ##", "~~~", "# still fenced", "~~~", "", "#", "# Row", "```", "## open to the end"]

theorem sections_withSubsections_guide :
    sections ((sections guide)[0].withSubsections ((sections guide).drop 1)) =
      ((sections guide).drop 1).takeWhile fun s => (sections guide)[0].level < s.level := by
  have hindent : ∀ line ∈ guide.lines, ¬ Indented line := by decide +kernel
  have hclosed : ∀ line ∈ openings false guide.lines, ¬ DoublyClosed line := by decide +kernel
  exact sections_withSubsections hindent hclosed _

end ComponentCatalog
