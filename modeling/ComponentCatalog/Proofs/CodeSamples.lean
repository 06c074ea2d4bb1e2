import ComponentCatalog.Markdown.CodeSample
import ComponentCatalog.Proofs.Readers

/-!
# Written code samples

Code samples are written as fenced blocks between pieces of prose. However many blocks there are, each
opening fence is paired with its own closing one, and the samples are read as they were written.
-/

namespace ComponentCatalog

namespace Markdown

open Reader

variable {c : Char} {t u v front : Text}

/-! ## Written samples -/

/-- No fence is in a text, and what follows it begins a line. -/
structure IsFenceFree (t : Text) : Prop where
  free : ¬ codeFence <:+: t
  ends : t = [] ∨ t.getLast? = some '\n'

/-- The text between two blocks. -/
structure Prose where
  text : Text
  fenceFree : IsFenceFree text

/-- A fenced block: the language, what else stands on its line, and the code, which may be empty. -/
structure WrittenSample where
  language : Text
  info : Text
  opening : LineBreak
  code : Text
  closing : LineBreak
  language_char : ∀ c ∈ language, isLanguageChar c = true
  info_blank : ∀ c ∈ info.head?, isBlank c = true
  info_inline : ∀ c ∈ info, c ≠ '\x60' ∧ c ≠ '\n'
  code_free : ¬ codeFence <:+: code

/-- The block from fence to fence. -/
def WrittenSample.text (s : WrittenSample) : Text :=
  codeFence ++ (s.language ++ (s.info ++ (s.opening.text ++ (s.code ++ (s.closing.text ++ codeFence)))))

/-- The sample that is read of a block: its code without the blanks around it, and `text` for no language. -/
def WrittenSample.sample (s : WrittenSample) : CodeSample :=
  ⟨if s.language = [] then "text" else s.language, s.code.trim⟩

/-- A document of prose and samples in turn. A line break ends a sample, or the document does. -/
inductive SampledText
  | prose (p : Prose)
  | sample (p : Prose) (s : WrittenSample) (b : LineBreak) (rest : SampledText)
  | last (p : Prose) (s : WrittenSample)

namespace SampledText

/-- The document as it is written. -/
def text : SampledText → Text
  | prose p => p.text
  | sample p s b rest => p.text ++ (s.text ++ (b.text ++ rest.text))
  | last p s => p.text ++ s.text

/-- The samples of the blocks, from first to last. -/
def samples : SampledText → List CodeSample
  | prose _ => []
  | sample _ s _ rest => s.sample :: rest.samples
  | last _ s => [s.sample]

end SampledText

/-! ## Texts without a fence -/

theorem notMem_codeFence : '\n' ∉ codeFence := by decide

/-- Every place in such a text has a line feed before the next fence. -/
theorem IsFenceFree.not_prefix (h : IsFenceFree front) (hfront : front = u ++ v) (hv : v ≠ []) (t : Text) :
    ¬ codeFence <+: v ++ t := by
  have hfeed : '\n' ∈ v := by
    rcases h.ends with rfl | hlast
    · exact absurd (List.append_eq_nil_iff.1 hfront.symm).2 hv
    · rw [hfront, List.getLast?_append_of_ne_nil _ hv] at hlast
      exact List.mem_of_getLast? hlast
  refine not_prefix_append (fun hprefix => h.free ?_) hfeed notMem_codeFence
  exact hfront ▸ hprefix.isInfix.trans (List.suffix_append u v).isInfix

theorem isFenceFree_lineBreak (b : LineBreak) : IsFenceFree b.text := by
  cases b <;> exact ⟨by decide, .inr rfl⟩

theorem isFenceFree_append_lineBreak (h : ¬ codeFence <:+: t) (b : LineBreak) : IsFenceFree (t ++ b.text) := by
  refine ⟨?_, .inr (by simp [LineBreak.text])⟩
  cases b with
  | feed =>
      have hends : ¬ codeFence <:+: [] := by decide
      exact mt (Text.infix_append_sep_iff notMem_codeFence).1 (not_or.2 ⟨h, hends⟩)
  | returnFeed =>
      have hends : ¬ codeFence <:+: ['\n'] := by decide
      exact mt (Text.infix_append_sep_iff (by decide)).1 (not_or.2 ⟨h, hends⟩)

theorem IsFenceFree.tail (h : IsFenceFree (c :: t)) : IsFenceFree t := by
  refine ⟨fun hfence => h.free (hfence.trans (List.suffix_cons c t).isInfix), ?_⟩
  cases t with
  | nil => exact .inl rfl
  | cons d t => exact .inr (by simpa using h.ends)

/-! ## Reading a sample -/

theorem after?_codeFence (t : Text) : Text.after? codeFence (codeFence ++ t) = some t := by
  rw [Text.after?, if_pos (List.isPrefixOf_iff_prefix.2 (List.prefix_append ..)), List.drop_left]

theorem after?_eq_none {w : Text} (h : ¬ w <+: t) : Text.after? w t = none := by
  rw [Text.after?, if_neg (mt List.isPrefixOf_iff_prefix.1 h)]

theorem splitAtFirst?_append (h : IsFenceFree front) (t : Text) :
    splitAtFirst? codeFence (front ++ (codeFence ++ t)) = some (front, t) := by
  induction front with
  | nil =>
      obtain ⟨c, r, hcons⟩ := List.exists_cons_of_ne_nil (l := codeFence ++ t) (by simp [codeFence])
      rw [List.nil_append, hcons, splitAtFirst?, ← hcons, after?_codeFence]
  | cons c front ih =>
      have hplace := h.not_prefix (List.nil_append _).symm (List.cons_ne_nil c front) (codeFence ++ t)
      rw [List.cons_append] at hplace ⊢
      rw [splitAtFirst?, after?_eq_none hplace, ih h.tail]
      rfl

theorem isLanguageChar_of_isBlank (h : isBlank c = true) : isLanguageChar c = false := by
  have hsigns : c ∉ ['+', '#', '.', '-'] := notMem_of_class rfl h
  simp only [List.mem_cons, List.not_mem_nil, or_false, not_or] at hsigns
  simp [isLanguageChar, isWord_of_isBlank h, hsigns]

/-- The language of a sample ends at a blank, which may be the one that ends the line. -/
theorem WrittenSample.stops_language (s : WrittenSample) (t : Text) :
    Stops isLanguageChar (s.info ++ (s.opening.text ++ t)) := by
  intro c hc
  refine isLanguageChar_of_isBlank ?_
  cases hinfo : s.info with
  | nil =>
      rw [hinfo, List.nil_append, List.head?_append_of_ne_nil _ (by simp [LineBreak.text])] at hc
      exact s.opening.text_blank c (List.mem_of_mem_head? hc)
  | cons d info =>
      rw [hinfo] at hc
      exact s.info_blank c (hinfo ▸ hc)

/-- The rest of its line is skipped. -/
theorem WrittenSample.skip_info (s : WrittenSample) (t : Text) :
    discard (run (· != '\n')) (s.info ++ (s.opening.text ++ t)) = some ((), '\n' :: t) := by
  have hfeed : Stops (· != '\n') ('\n' :: t) := Stops.cons_iff.2 rfl
  have hline : ∀ c ∈ s.info ++ s.opening.front, (c != '\n') = true := by
    intro c hc
    rcases List.mem_append.1 hc with hc | hc
    · simpa using (s.info_inline c hc).2
    · simpa using (s.opening.front_blank c hc).2
  have hsplit : s.info ++ (s.opening.text ++ t) = s.info ++ s.opening.front ++ '\n' :: t := by
    simp [LineBreak.text]
  rw [discard_apply, run, hsplit, hfeed.dropWhile_append hline, Option.map_some]

theorem fencedBlock_text (s : WrittenSample) (t : Text) : fencedBlock (s.text ++ t) = some (s.sample, t) := by
  let rest := s.code ++ s.closing.text ++ (codeFence ++ t)
  have htext : s.text ++ t = codeFence ++ (s.language ++ (s.info ++ (s.opening.text ++ rest))) := by
    simp [WrittenSample.text, rest]
  have hlanguage : run isLanguageChar (s.language ++ (s.info ++ (s.opening.text ++ rest))) =
      some (s.language, s.info ++ (s.opening.text ++ rest)) := by
    rw [run, (s.stops_language rest).takeWhile_append s.language_char,
      (s.stops_language rest).dropWhile_append s.language_char]
  have hfeed : lit "\n" ('\n' :: rest) = some ((), rest) := lit_append "\n" rest
  have hcode : splitAtFirst? codeFence rest = some (s.code ++ s.closing.text, t) :=
    splitAtFirst?_append (isFenceFree_append_lineBreak s.code_free s.closing) t
  have htrim : (s.code ++ s.closing.text).trim = s.code.trim := Text.trim_append_blank s.closing.text_blank _
  rw [htext, fencedBlock]
  simp only [bind_apply, lit_append, Option.bind_some, hlanguage, s.skip_info rest, hfeed, hcode, pure_apply,
    htrim, List.isEmpty_iff]
  rfl

theorem fencedBlock_eq_none (h : ¬ codeFence <+: t) : fencedBlock t = none := by
  rw [fencedBlock, bind_apply, lit_eq_none fun r heq => h ⟨r, heq.symm⟩]
  rfl

/-! ## Reading a document -/

theorem occurrencesFrom_fenceFree (h : IsFenceFree front) (previous : Option Char) (t : Text) :
    occurrencesFrom (fun _ => fencedBlock) previous 0 (front ++ t) =
      occurrencesFrom (fun _ => fencedBlock) (front.getLast?.or previous) 0 t :=
  occurrencesFrom_append fun _ c v hsplit => fencedBlock_eq_none (h.not_prefix hsplit (List.cons_ne_nil c v) t)

theorem occurrencesFrom_sample (s : WrittenSample) (previous : Option Char) (t : Text) :
    ∃ previous', occurrencesFrom (fun _ => fencedBlock) previous 0 (s.text ++ t) =
      s.sample :: occurrencesFrom (fun _ => fencedBlock) previous' 0 t :=
  ⟨_, occurrencesFrom_read (List.append_ne_nil_of_left_ne_nil (by decide) _) (fencedBlock_text s t)⟩

theorem SampledText.occurrencesFrom_text (d : SampledText) (previous : Option Char) :
    occurrencesFrom (fun _ => fencedBlock) previous 0 d.text = d.samples := by
  induction d generalizing previous with
  | prose p =>
      have hprose := occurrencesFrom_fenceFree p.fenceFree previous []
      rwa [List.append_nil] at hprose
  | sample p s b rest ih =>
      obtain ⟨previous', hsample⟩ := occurrencesFrom_sample s (p.text.getLast?.or previous) (b.text ++ rest.text)
      rw [text, occurrencesFrom_fenceFree p.fenceFree, hsample,
        occurrencesFrom_fenceFree (isFenceFree_lineBreak b), ih, samples]
  | last p s =>
      obtain ⟨previous', hsample⟩ := occurrencesFrom_sample s (p.text.getLast?.or previous) []
      rw [List.append_nil] at hsample
      rw [text, occurrencesFrom_fenceFree p.fenceFree, hsample, samples, occurrencesFrom]

end Markdown

open Markdown

/-- The samples of a document are read as they are written. -/
theorem codeSamples_sampledText (d : SampledText) : codeSamples d.text = d.samples :=
  d.occurrencesFrom_text none

/-- A sample with a language and marks of code in it, and one without a language that holds nothing. -/
def tutorialText : SampledText :=
  .sample ⟨"Install it:\n", ⟨by decide +kernel, .inr rfl⟩⟩
    ⟨"c++", " title=setup", .feed, "  a \x60\x60 b\n  c", .feed, List.all_iff_forall_prop.1 (by decide),
      by rintro _ ⟨⟩; rfl, List.all_iff_forall_prop.1 (by decide), by decide +kernel⟩ .feed
    (.last ⟨"", ⟨by decide +kernel, .inl rfl⟩⟩
      ⟨"", "", .feed, "", .returnFeed, by simp, by simp, by simp, by decide +kernel⟩)

theorem codeSamples_tutorialText :
    codeSamples tutorialText.text = [⟨"c++", "a \x60\x60 b\n  c"⟩, ⟨"text", ""⟩] := by
  rw [codeSamples_sampledText]
  decide +kernel

end ComponentCatalog
