import ComponentCatalog.Proofs.SectionText
import Mathlib.Algebra.Ring.Parity

/-!
# Fenced blocks of a document

A document is put together from headings, plain lines and fenced blocks. Its sections should begin at the
headings and nowhere else, whatever stands in the blocks. But fences are only counted, whatever their
mark, so a block that holds the other mark may end too early or too late. The sections are right exactly
if the count is right at every line that reads like a heading.
-/

namespace ComponentCatalog

namespace Markdown

variable {line : Text} {ls : List Text}

/-! ## Documents -/

/-- A text that ends with marks after blanks. -/
def IsClosed (t : Text) : Prop :=
  ∃ front gap marks, t = front ++ gap ++ marks ∧ (∀ c ∈ gap, isBlank c = true) ∧ (∀ c ∈ marks, c = '#') ∧
    gap ≠ [] ∧ marks ≠ []

/-- What may follow a title on its line: blanks, or closing marks between blanks. -/
inductive Closes (title : Text) : Text → Prop
  | blanks {tail : Text} : (∀ c ∈ tail, isBlank c = true) → ¬ IsClosed title → Closes title tail
  | marks {gap marks tail : Text} : (∀ c ∈ gap, isBlank c = true) → (∀ c ∈ marks, c = '#') →
      (∀ c ∈ tail, isBlank c = true) → gap ≠ [] → marks ≠ [] → Closes title (gap ++ marks ++ tail)

/-- The line of a heading with a title. -/
structure HeadingLine where
  heading : Heading
  gap : Text
  closing : Text
  one_le_level : 1 ≤ heading.level
  level_le_six : heading.level ≤ 6
  gap_ne_nil : gap ≠ []
  gap_blank : ∀ c ∈ gap, isBlank c = true
  title_ne_nil : heading.title ≠ []
  trim_title : heading.title.trim = heading.title
  closes : Closes heading.title closing

/-- The line as it is written. -/
def HeadingLine.text (h : HeadingLine) : Text :=
  List.replicate h.heading.level '#' ++ h.gap ++ h.heading.title ++ h.closing

/-- The two kinds of fences. -/
inductive Fence where
  | backticks
  | tildes

/-- The mark that a fence begins with. -/
def Fence.mark : Fence → Text
  | backticks => "\x60\x60\x60"
  | tildes => "~~~"

/-- A fenced block: behind the fence that opens it anything may follow, the fence that closes it stands
alone, and no line between them begins with the same mark. -/
structure FencedBlock where
  fence : Fence
  info : Text
  body : List Text
  isOpen : ∀ line ∈ body, Text.startsWith (line.dropWhile isBlank) fence.mark = false

/-- The lines of a block with those of its fences. -/
def FencedBlock.lines (b : FencedBlock) : List Text := (b.fence.mark ++ b.info) :: (b.body ++ [b.fence.mark])

/-- The parts that a document is put together from. -/
inductive Piece
  | heading (h : HeadingLine)
  | plain (line : Text) (notHeading : sectionHeading? line = none) (notFence : isFence line = false)
  | block (b : FencedBlock)

/-- A document is put together from parts, from first to last. -/
abbrev Document := List Piece

/-- The lines of a document, each with whether it belongs to a block. -/
def Piece.marked : Piece → List (Bool × Text)
  | heading h => [(false, h.text)]
  | plain line _ _ => [(false, line)]
  | block b => b.lines.map (true, ·)

/-- The lines of all parts. -/
def Document.marked (d : Document) : List (Bool × Text) := d.flatMap Piece.marked

/-- The lines as they are written. -/
def Document.lines (d : Document) : List Text := d.marked.map (·.2)

/-- The lines up to the first heading of a document, and one section for each of its headings. -/
def Document.split : Document → List Text × List Section
  | [] => ([], [])
  | .heading h :: rest =>
    ([], ⟨h.heading.title, contentOf (Document.split rest).1, h.heading.level⟩ :: (Document.split rest).2)
  | .plain line _ _ :: rest => (line :: (Document.split rest).1, (Document.split rest).2)
  | .block b :: rest => (b.lines ++ (Document.split rest).1, (Document.split rest).2)

/-- One section for each heading. -/
def Document.outline (d : Document) : List Section := d.split.2

/-- A line that reads like a heading belongs to a block exactly if there is an odd number of fences
above it. -/
def Document.CountsFences (d : Document) : Prop :=
  ∀ above inside line below, d.marked = above ++ (inside, line) :: below →
    (sectionHeading? line).isSome = true → (inside = true ↔ Odd (above.countP fun l => isFence l.2))

/-! ## Lines of headings -/

theorem headingTitle_of_closes {title closing : Text} (htrim : title.trim = title)
    (h : Closes title closing) : headingTitle (title ++ closing) = title := by
  have hright : title.trimRight = title := Text.trimRight_of_trim htrim
  cases h with
  | blanks hblank hopen =>
      rw [← headingTitle_trimRight, Text.trimRight_append_blank hblank, headingTitle_trimRight]
      rcases headingTitle_cases title with htitle | ⟨gap, marks, htitle, hgap, hmarks, hne, hne'⟩
      · rw [htitle, hright]
      · exact absurd ⟨_, gap, marks, hright.symm.trans htitle, hgap, hmarks, hne, hne'⟩ hopen
  | marks hgap hmarks htail hne hne' =>
      rw [← List.append_assoc, ← List.append_assoc, headingTitle_append hgap hmarks htail hne hne', hright]

theorem sectionHeading?_text (h : HeadingLine) : sectionHeading? h.text = some h.heading := by
  obtain ⟨c, gap, hgap⟩ := List.exists_cons_of_ne_nil h.gap_ne_nil
  have hblank : ∀ d ∈ c :: gap, isBlank d = true := hgap ▸ h.gap_blank
  obtain ⟨x, title, htitle, hx, -⟩ := Text.exists_cons_of_trim h.trim_title h.title_ne_nil
  have hdrop : (gap ++ (h.heading.title ++ h.closing)).dropWhile isBlank = h.heading.title ++ h.closing := by
    rw [List.dropWhile_append_of_pos fun d hd => hblank d (by simp [hd]), htitle, List.cons_append,
      List.dropWhile_cons_of_neg (by simp [hx])]
  have hread : heading? h.text = some h.heading := by
    have hmarks := heading?_marks (ne_mark_of_blank (hblank c (by simp))) h.heading.level
      (gap ++ (h.heading.title ++ h.closing))
    rw [if_pos ⟨h.one_le_level, h.level_le_six, hblank c (by simp)⟩, hdrop,
      headingTitle_of_closes h.trim_title h.closes] at hmarks
    simpa [HeadingLine.text, hgap] using hmarks
  rw [sectionHeading?, hread]
  simp [h.title_ne_nil]

/-! ## Two ways to mark the lines that no section begins at -/

/-- The sections of lines that are marked where no section may begin. -/
def splitMarked : List (Bool × Text) → List Text × List Section
  | [] => ([], [])
  | (inside, line) :: rest =>
    match if inside then none else sectionHeading? line with
    | some h => ([], ⟨h.title, contentOf (splitMarked rest).1, h.level⟩ :: (splitMarked rest).2)
    | none => (line :: (splitMarked rest).1, (splitMarked rest).2)

theorem splitMarked_inside (ls : List Text) (rest : List (Bool × Text)) :
    splitMarked (ls.map (true, ·) ++ rest) = (ls ++ (splitMarked rest).1, (splitMarked rest).2) := by
  induction ls with
  | nil => rfl
  | cons line ls ih => simp [splitMarked, ih]

theorem Document.split_eq (d : Document) : d.split = splitMarked d.marked := by
  induction d with
  | nil => rfl
  | cons piece d ih =>
      cases piece with
      | heading h =>
          rw [split, ih]
          simp [marked, Piece.marked, splitMarked, sectionHeading?_text]
      | plain line hheading _ =>
          rw [split, ih]
          simp [marked, Piece.marked, splitMarked, hheading]
      | block b =>
          rw [marked, List.flatMap_cons, Piece.marked, splitMarked_inside, ← marked, ← ih]
          rfl

/-- Marked lines, each with whether an odd number of fences has been counted. -/
def counted (odd : Bool) : List (Bool × Text) → List (Bool × Bool × Text)
  | [] => []
  | (inside, line) :: rest =>
    (odd != isFence line, inside, line) :: counted (odd != isFence line) rest

theorem map_counted (odd : Bool) (m : List (Bool × Text)) : (counted odd m).map (·.2) = m := by
  induction m generalizing odd with
  | nil => rfl
  | cons l m ih => simp [counted, ih]

theorem splitSections_eq (odd : Bool) (m : List (Bool × Text)) :
    splitSections odd (m.map (·.2)) = splitMarked ((counted odd m).map fun l => (l.1, l.2.2)) := by
  induction m generalizing odd with
  | nil => rfl
  | cons l m ih =>
      rw [List.map_cons, counted, List.map_cons, splitMarked, ← ih]
      rfl

/-! ## Sections tell where they begin -/

/-- A line without the blanks around it, unless nothing is left. -/
def ink? (line : Text) : Option Text := if line.trim = [] then none else some line.trim

theorem ink?_ignoresBlanks : IgnoresBlanks ink? where
  nil := rfl
  cons hc line := by rw [ink?, ink?, Text.trim_cons_blank hc]
  concat hc line := by rw [ink?, ink?, Text.trim_concat_blank hc]

/-- The number of lines that are not blank. -/
def inked (ls : List Text) : Nat := (ls.filterMap ink?).length

/-- The number of lines of sections that are not blank, headings included. -/
def Sections.inked (S : List Section) : Nat :=
  (S.map fun s => 1 + Markdown.inked (Text.pieces '\n' s.content)).sum

theorem inked_cons_heading (h : (sectionHeading? line).isSome = true) (ls : List Text) :
    inked (line :: ls) = 1 + inked ls := by
  obtain ⟨heading, hline⟩ := Option.isSome_iff_exists.1 h
  obtain ⟨hheading, -⟩ := Option.filter_eq_some_iff.1 hline
  obtain ⟨c, r, rfl, -, hlevel, -⟩ := exists_of_heading? hheading
  have hne : Text.trim (List.replicate heading.level '#' ++ c :: r) ≠ [] := by
    rw [Ne, Text.trim_eq_nil_iff]
    intro hblank
    exact absurd (hblank '#' (by simp; omega)) (by decide)
  simp [inked, ink?, hne, Nat.add_comm]

/-- No line is lost between sections. -/
theorem inked_splitMarked {m : List (Bool × Text)}
    (hends : ∀ line ∈ m.map (·.2), ∀ c ∈ line, isLineEnd c = false) :
    inked (splitMarked m).1 + Sections.inked (splitMarked m).2 = inked (m.map (·.2)) ∧
      ∀ line ∈ (splitMarked m).1, ∀ c ∈ line, isLineEnd c = false := by
  induction m with
  | nil => exact ⟨rfl, by simp [splitMarked]⟩
  | cons l m ih =>
      obtain ⟨inside, line⟩ := l
      rw [List.map_cons, List.forall_mem_cons] at hends
      obtain ⟨hsum, hbody⟩ := ih hends.2
      rw [splitMarked]
      split
      · next h hline =>
          have hsome : (sectionHeading? line).isSome = true := by
            cases inside <;> simp_all
          refine ⟨?_, by simp⟩
          rw [List.map_cons, inked_cons_heading hsome, ← hsum]
          simp only [Sections.inked, List.map_cons, List.sum_cons, inked,
            ink?_ignoresBlanks.contentOf hbody]
          simp
          omega
      · refine ⟨?_, List.forall_mem_cons.2 ⟨hends.1, hbody⟩⟩
        cases hink : ink? line <;> simp [inked, hink] at hsum ⊢ <;> omega

/-- Where one heading more is seen, more lines would have to be there. -/
theorem cons_splitMarked_ne {m m' : List (Bool × Text)} (hlines : m.map (·.2) = m'.map (·.2))
    (hends : ∀ line ∈ m.map (·.2), ∀ c ∈ line, isLineEnd c = false) (title : Text) (level : Nat) :
    ⟨title, contentOf (splitMarked m).1, level⟩ :: (splitMarked m).2 ≠ (splitMarked m').2 := by
  intro heq
  obtain ⟨hsum, hbody⟩ := inked_splitMarked hends
  obtain ⟨hsum', -⟩ := inked_splitMarked (hlines ▸ hends)
  have hcount := congrArg Sections.inked heq
  have hcontent : inked (Text.pieces '\n' (contentOf (splitMarked m).1)) = inked (splitMarked m).1 := by
    rw [inked, ink?_ignoresBlanks.contentOf hbody, inked]
  rw [Sections.inked, List.map_cons, List.sum_cons, hcontent, ← Sections.inked] at hcount
  rw [hlines] at hsum
  omega

/-- Marks give the same sections exactly if they agree on all lines that read like headings. -/
theorem splitMarked_eq_iff {m : List (Bool × Bool × Text)}
    (hends : ∀ line ∈ m.map (·.2.2), ∀ c ∈ line, isLineEnd c = false) :
    (splitMarked (m.map fun l => (l.1, l.2.2))).2 = (splitMarked (m.map (·.2))).2 ↔
      ∀ l ∈ m, (sectionHeading? l.2.2).isSome = true → l.1 = l.2.1 := by
  constructor
  · induction m with
    | nil => exact fun _ _ hl => by cases hl
    | cons l m ih =>
        obtain ⟨left, right, line⟩ := l
        rw [List.map_cons, List.forall_mem_cons] at hends
        have hlines : (m.map fun l => (l.1, l.2.2)).map (·.2) = (m.map (·.2)).map (·.2) := by simp
        have hends' : ∀ line ∈ (m.map fun l => (l.1, l.2.2)).map (·.2), ∀ c ∈ line, isLineEnd c = false := by
          rw [List.map_map]
          exact hends.2
        rw [List.map_cons, List.map_cons, splitMarked, splitMarked, List.forall_mem_cons]
        intro heq
        cases hline : sectionHeading? line with
        | none =>
            simp only [hline, ite_self] at heq
            exact ⟨by simp, ih hends.2 heq⟩
        | some h =>
            simp only [hline] at heq
            cases left with
            | false =>
                cases right with
                | false => exact ⟨fun _ => rfl, ih hends.2 (List.cons.inj heq).2⟩
                | true => exact absurd heq (cons_splitMarked_ne hlines hends' _ _)
            | true =>
                cases right with
                | false => exact absurd heq.symm (cons_splitMarked_ne hlines.symm (hlines ▸ hends') _ _)
                | true => exact ⟨fun _ => rfl, ih hends.2 heq⟩
  · intro hagree
    have hsame : splitMarked (m.map fun l => (l.1, l.2.2)) = splitMarked (m.map (·.2)) := by
      clear hends
      induction m with
      | nil => rfl
      | cons l m ih =>
          obtain ⟨left, right, line⟩ := l
          rw [List.forall_mem_cons] at hagree
          rw [List.map_cons, List.map_cons, splitMarked, splitMarked, ih hagree.2]
          cases hline : sectionHeading? line with
          | none => simp only [ite_self]
          | some h =>
              obtain rfl : left = right := hagree.1 (by simp [hline])
              rfl
    rw [hsame]

/-! ## Counting fences -/

/-- Whether an odd number of fences has been counted after marked lines. -/
def oddAfter (odd : Bool) (m : List (Bool × Text)) : Bool := m.foldl (fun odd l => odd != isFence l.2) odd

theorem counted_append (odd : Bool) (m m' : List (Bool × Text)) :
    counted odd (m ++ m') = counted odd m ++ counted (oddAfter odd m) m' := by
  induction m generalizing odd with
  | nil => rfl
  | cons l m ih => simp [counted, ih, oddAfter]

theorem oddAfter_eq_true_iff (odd : Bool) (m : List (Bool × Text)) :
    oddAfter odd m = true ↔ (odd = false ↔ Odd (m.countP fun l => isFence l.2)) := by
  induction m generalizing odd with
  | nil => simp [oddAfter]
  | cons l m ih =>
      rw [oddAfter, List.foldl_cons, ← oddAfter, ih, List.countP_cons]
      cases odd <;> cases isFence l.2 <;> simp [Nat.odd_add_one]

theorem mem_counted {odd : Bool} {m : List (Bool × Text)} {l : Bool × Bool × Text} :
    l ∈ counted odd m ↔ ∃ above below, m = above ++ l.2 :: below ∧
      l.1 = (oddAfter odd above != isFence l.2.2) := by
  constructor
  · induction m generalizing odd with
    | nil => exact fun hl => by cases hl
    | cons head m ih =>
        rw [counted, List.mem_cons]
        rintro (rfl | hl)
        · exact ⟨[], m, rfl, rfl⟩
        · obtain ⟨above, below, rfl, hodd⟩ := ih hl
          exact ⟨head :: above, below, rfl, hodd⟩
  · rintro ⟨above, below, rfl, hodd⟩
    rw [counted_append, counted, List.mem_append, List.mem_cons, ← hodd]
    exact .inr (.inl rfl)

theorem Document.countsFences_iff {d : Document} :
    d.CountsFences ↔ ∀ l ∈ counted false d.marked, (sectionHeading? l.2.2).isSome = true → l.1 = l.2.1 := by
  have hline : ∀ {above line}, (sectionHeading? line).isSome = true →
      ((oddAfter false above != isFence line) = true ↔ Odd (above.countP fun l => isFence l.2)) := by
    intro above line hsome
    obtain ⟨h, hread⟩ := Option.isSome_iff_exists.1 hsome
    rw [isFence_of_sectionHeading? hread, Bool.bne_false, oddAfter_eq_true_iff]
    simp
  constructor
  · intro hcounts l hl hsome
    obtain ⟨above, below, hmarked, hodd⟩ := mem_counted.1 hl
    rw [Bool.eq_iff_iff, hodd, hline hsome]
    exact (hcounts above l.2.1 l.2.2 below hmarked hsome).symm
  · intro hagree above inside line below hmarked hsome
    have hl := hagree (oddAfter false above != isFence line, inside, line)
      (mem_counted.2 ⟨above, below, hmarked, rfl⟩) hsome
    rw [← hline hsome]
    exact Bool.eq_iff_iff.1 hl.symm

/-! ## Blocks without the other mark -/

theorem isFence_mark_append (fence : Fence) (t : Text) : isFence (fence.mark ++ t) = true := by
  cases fence <;> rfl

theorem counted_inside (hplain : ∀ line ∈ ls, isFence line = false) (rest : List (Bool × Text)) :
    counted true (ls.map (true, ·) ++ rest) = ls.map (true, true, ·) ++ counted true rest := by
  induction ls with
  | nil => rfl
  | cons line ls ih =>
      rw [List.forall_mem_cons] at hplain
      rw [List.map_cons, List.cons_append, counted, hplain.1, Bool.bne_false, ih hplain.2]
      rfl

/-- Fences are counted right where no block holds the other mark. -/
theorem Document.countsFences_of_unmixed {d : Document}
    (h : ∀ b, .block b ∈ d → ∀ line ∈ b.body, isFence line = false) : d.CountsFences := by
  rw [countsFences_iff]
  induction d with
  | nil => exact fun _ hl => by cases hl
  | cons piece d ih =>
      have hrest := ih fun b hb => h b (by simp [hb])
      rw [marked, List.flatMap_cons, ← marked]
      cases piece with
      | heading heading =>
          have hfence := isFence_of_sectionHeading? (sectionHeading?_text heading)
          rw [Piece.marked, List.singleton_append, counted, hfence, List.forall_mem_cons]
          exact ⟨fun _ => rfl, hrest⟩
      | plain line hheading hfence =>
          rw [Piece.marked, List.singleton_append, counted, hfence, List.forall_mem_cons]
          exact ⟨fun _ => rfl, hrest⟩
      | block b =>
          have hopening := isFence_mark_append b.fence b.info
          have hclosing : isFence b.fence.mark = true := by simpa using isFence_mark_append b.fence []
          rw [Piece.marked, FencedBlock.lines, List.map_cons, List.map_append, List.cons_append,
            List.append_assoc, counted, hopening, Bool.bne_true, Bool.not_false,
            counted_inside (h b (by simp)), List.map_singleton, List.singleton_append, counted, hclosing]
          simp only [List.forall_mem_cons, List.forall_mem_append, List.forall_mem_map]
          refine ⟨fun _ => trivial, fun _ _ _ => trivial, ?_, hrest⟩
          intro hsome
          obtain ⟨heading, hread⟩ := Option.isSome_iff_exists.1 hsome
          rw [isFence_of_sectionHeading? hread] at hclosing
          cases hclosing

end Markdown

open Markdown

/-- A text has the sections of the document on its lines exactly if the fences above every line that
reads like a heading are counted right. So it has if no block holds the other mark. -/
theorem sections_eq_outline_iff {t : Text} {d : Document} (h : t.lines = d.lines) :
    (sections t = d.outline ↔ d.CountsFences) ∧
      ((∀ b, .block b ∈ d → ∀ line ∈ b.body, isFence line = false) → sections t = d.outline) := by
  have hsplit : sections t = (splitMarked ((counted false d.marked).map fun l => (l.1, l.2.2))).2 := by
    rw [sections, h, Document.lines, splitSections_eq]
  have hends : ∀ line ∈ (counted false d.marked).map (·.2.2), ∀ c ∈ line, isLineEnd c = false := by
    intro line hline
    refine Text.isLineEnd_of_mem_lines (t := t) ?_
    rw [h, Document.lines, ← map_counted false d.marked, List.map_map]
    exact hline
  have hiff : sections t = d.outline ↔ d.CountsFences := by
    rw [hsplit, Document.outline, Document.split_eq, Document.countsFences_iff,
      ← splitMarked_eq_iff hends, map_counted]
  exact ⟨hiff, fun hunmixed => hiff.2 (Document.countsFences_of_unmixed hunmixed)⟩

theorem Markdown.not_isClosed {t : Text} (h : '#' ∉ t) : ¬ IsClosed t := by
  rintro ⟨front, gap, marks, rfl, -, hmarks, -, hne⟩
  obtain ⟨c, rest, rfl⟩ := List.exists_cons_of_ne_nil hne
  exact h (by simp [hmarks c (by simp)])

/-- A block that holds the other mark and a comment, and a heading below it. -/
def crossedDocument : Document :=
  [.block ⟨.backticks, "sh", ["~~~", "# install"], by decide⟩,
    .heading ⟨⟨1, "Usage"⟩, " ", [], by decide, by decide, by decide, List.all_eq_true.1 rfl,
      by decide, rfl, .blanks (by simp) (not_isClosed (by decide))⟩]

/-- A block that holds a fence of the other kind and a line that reads like a heading. -/
def crossedText : Text := "\x60\x60\x60sh\n~~~\n# install\n\x60\x60\x60\n# Usage\n"

/-- The comment begins a section, and the heading begins none. -/
theorem sections_crossedText :
    crossedText.lines = crossedDocument.lines ∧ sections crossedText ≠ crossedDocument.outline := by
  have hlines : crossedText.lines = crossedDocument.lines := by decide
  refine ⟨hlines, fun heq => ?_⟩
  have hcounts := (sections_eq_outline_iff hlines).1.1 heq
  have hodd := hcounts [(true, "\x60\x60\x60sh"), (true, "~~~")] true "# install" _ rfl (by decide)
  exact absurd (hodd.1 rfl) (by decide)

end ComponentCatalog
