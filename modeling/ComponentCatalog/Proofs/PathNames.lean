import ComponentCatalog.Path
import ComponentCatalog.Proofs.Pieces

/-!
# Names in paths

A path is its slashes in front and the names behind them. Where one path is seen from another, only
those names are left of a relative one.
-/

namespace ComponentCatalog

namespace Path

/-- The parts of a path behind the slashes of an absolute one. -/
def names (p : Path) : List Text := if p.isAbsolute then p.parts.tail else p.parts

theorem isAnchor_of_notMem {t : Text} (h : '/' ∉ t) : isAnchor t = false := by
  cases t with
  | nil => rfl
  | cons c t => simpa [isAnchor] using fun hc => h (by simp [hc])

theorem anchor_eq (t : Text) :
    anchor t = [] ∧ isAnchor t = false ∨
      (anchor t = [['/']] ∨ anchor t = [['/', '/']]) ∧ isAnchor t = true := by
  cases t with
  | nil => exact .inl ⟨rfl, rfl⟩
  | cons c t =>
      by_cases hc : c = '/'
      · subst hc
        have hslashes : (('/' :: t).takeWhile (· == '/')).length = (t.takeWhile (· == '/')).length + 1 := by
          simp
        unfold anchor
        rw [hslashes]
        split
        · omega
        · exact .inr ⟨.inr rfl, rfl⟩
        · exact .inr ⟨.inl rfl, rfl⟩
      · exact .inl (by simp [anchor, isAnchor, hc])

/-- A path is absolute if its text begins with a slash. -/
theorem isAbsolute_ofText (t : Text) : (ofText t).isAbsolute = isAnchor t := by
  rcases anchor_eq t with ⟨h, ht⟩ | ⟨h | h, ht⟩
  · have hplain : ∀ part ∈ (t.pieces '/').filter (fun part => !part.isEmpty && part != ['.']),
        isAnchor part = false := fun part hpart =>
      isAnchor_of_notMem (Text.notMem_of_mem_pieces (List.mem_filter.1 hpart).1)
    rw [isAbsolute, ofText, h, ht, List.nil_append]
    cases hparts : (t.pieces '/').filter fun part => !part.isEmpty && part != ['.'] with
    | nil => rfl
    | cons part rest => simp [hplain part (hparts ▸ List.mem_cons_self)]
  · rw [isAbsolute, ofText, h, ht]
    rfl
  · rw [isAbsolute, ofText, h, ht]
    rfl

/-- The names in the path of a text are what stands between its slashes, but for single dots. -/
theorem names_ofText (t : Text) :
    (ofText t).names = (t.pieces '/').filter fun part => !part.isEmpty && part != ['.'] := by
  unfold names
  rw [isAbsolute_ofText]
  rcases anchor_eq t with ⟨h, ht⟩ | ⟨h | h, ht⟩
  · rw [if_neg (by simp [ht]), ofText, h, List.nil_append]
  · rw [if_pos ht, ofText, h]
    rfl
  · rw [if_pos ht, ofText, h]
    rfl

/-- A text that is a single part of a path. -/
def IsName (t : Text) : Prop := '/' ∉ t ∧ t ≠ [] ∧ t ≠ ['.']

theorem isName_of_mem_names_ofText {t name : Text} (h : name ∈ (ofText t).names) : IsName name := by
  rw [names_ofText, List.mem_filter] at h
  obtain ⟨hpiece, hkept⟩ := h
  exact ⟨Text.notMem_of_mem_pieces hpiece, by simpa using hkept⟩

theorem notMem_of_mem_names_ofText {t name : Text} (h : name ∈ (ofText t).names) : '/' ∉ name :=
  (isName_of_mem_names_ofText h).1

theorem ofText_of_isName {t : Text} (h : IsName t) : ofText t = ⟨[t]⟩ := by
  obtain ⟨hslash, hne, hdot⟩ := h
  have hanchor : anchor t = [] := by
    rcases anchor_eq t with ⟨hanchor, -⟩ | ⟨-, ht⟩
    · exact hanchor
    · simp [isAnchor_of_notMem hslash] at ht
  simp [ofText, hanchor, Text.pieces_of_notMem hslash, hne, hdot]

theorem join_of_isName {t : Text} (h : IsName t) (p : Path) : p.join t = p.child t := by
  rw [join, ofText_of_isName h, append, if_neg (by simp [isAbsolute, isAnchor_of_notMem h.1])]
  rfl

/-! ## Names behind a path -/

/-- The path that the names lead to from `p`. -/
def descend (p : Path) (names : List Text) : Path := ⟨p.parts ++ names⟩

/-- Paths that differ at most in the slashes in front. -/
def Alike (p q : Path) : Prop := p.isAbsolute = q.isAbsolute ∧ p.names = q.names

variable {p q q' : Path} {ns : List Text}

theorem isAbsolute_descend (h : ∀ name ∈ ns, IsName name) : (p.descend ns).isAbsolute = p.isAbsolute := by
  cases hp : p.parts with
  | cons part rest => simp [isAbsolute, descend, hp]
  | nil =>
      cases ns with
      | nil => simp [isAbsolute, descend, hp]
      | cons name ns => simp [isAbsolute, descend, hp, isAnchor_of_notMem (h name (by simp)).1]

theorem names_descend (h : ∀ name ∈ ns, IsName name) : (p.descend ns).names = p.names ++ ns := by
  unfold names
  rw [isAbsolute_descend h]
  cases hp : p.parts with
  | cons part rest => split <;> simp [descend, hp]
  | nil => simp [isAbsolute, descend, hp]

/-- A longer path is seen from elsewhere behind the shorter one. -/
theorem alike_append (habs : q'.isAbsolute = q.isAbsolute) (hnames : q'.names = q.names ++ ns)
    (h : ∀ name ∈ ns, IsName name) (p : Path) : ((p.append q).descend ns).Alike (p.append q') := by
  unfold append
  rw [habs]
  split
  · exact ⟨(isAbsolute_descend h).trans habs.symm, (names_descend h).trans hnames.symm⟩
  · next hrelative =>
      have hparts : q'.parts = q.parts ++ ns := by
        have hrelative' : ¬ q'.isAbsolute = true := habs ▸ hrelative
        simpa [names, hrelative, hrelative'] using hnames
      simp [Alike, descend, hparts]

/-! ## Paths as texts -/

/-- What stands for the root in a path is one slash or two. -/
def Anchored (p : Path) : Prop :=
  ∀ part ∈ p.parts.head?, isAnchor part = true → part = ['/'] ∨ part = ['/', '/']

theorem anchored_ofText (t : Text) : (ofText t).Anchored := by
  intro part hpart hslash
  rcases anchor_eq t with ⟨h, ht⟩ | ⟨h | h, -⟩
  · have habs : (ofText t).isAbsolute = true := by
      rw [isAbsolute, Option.any_eq_true]
      exact ⟨part, hpart, hslash⟩
    simp [isAbsolute_ofText, ht] at habs
  · simp_all [ofText]
  · simp_all [ofText]

theorem Anchored.join (h : p.Anchored) (t : Text) : (p.join t).Anchored := by
  unfold Path.join append
  split
  · exact anchored_ofText t
  · cases hp : p.parts with
    | nil => simpa [Anchored, hp] using anchored_ofText t
    | cons part rest => simpa [Anchored, hp] using h

theorem Anchored.descend (h : p.Anchored) (hns : ∀ name ∈ ns, IsName name) : (p.descend ns).Anchored := by
  cases hp : p.parts with
  | cons part rest => simpa [Anchored, Path.descend, hp] using h
  | nil =>
      intro part hpart hslash
      have hmem : part ∈ ns := List.mem_of_mem_head? (by simpa [Path.descend, hp] using hpart)
      simp [isAnchor_of_notMem (hns part hmem).1] at hslash

/-- The text of a longer path ends with its last name behind a slash. -/
theorem toText_child {part : Text} {rest : List Text} (hp : p.parts = part :: rest) (h : p.Anchored)
    (name : Text) : ∃ front, (p.child name).toText = front ++ '/' :: name := by
  have hjoin : ∀ parts : List Text, parts ≠ [] →
      Text.join ['/'] (parts ++ [name]) = Text.join ['/'] parts ++ '/' :: name := by
    intro parts hparts
    rw [Text.join_append _ hparts (by simp)]
    simp [Text.join]
  have hanchored := h part (by simp [hp])
  simp only [toText, child, hp, List.cons_append]
  split
  · next hslash =>
      cases rest with
      | nil =>
          rcases hanchored hslash with rfl | rfl
          · exact ⟨[], rfl⟩
          · exact ⟨['/'], rfl⟩
      | cons next rest =>
          rw [hjoin (next :: rest) (by simp)]
          exact ⟨part ++ Text.join ['/'] (next :: rest), by simp⟩
  · exact ⟨_, hjoin (part :: rest) (by simp)⟩

/-- Read as a path, the text of a path ends with the same name. -/
theorem name_ofText_toText_child {name : Text} (h : p.Anchored) (hname : IsName name) :
    (ofText (p.child name).toText).name = name := by
  cases hp : p.parts with
  | nil =>
      have htext : (p.child name).toText = name := by
        simp [toText, child, hp, isAnchor_of_notMem hname.1, Text.join]
      rw [htext, ofText_of_isName hname]
      rfl
  | cons part rest =>
      obtain ⟨front, htext⟩ := toText_child hp h name
      obtain ⟨hslash, hne, hdot⟩ := hname
      simp [htext, Path.name, ofText, Text.pieces_append, Text.pieces_of_notMem hslash, hne, hdot]

end Path

end ComponentCatalog
