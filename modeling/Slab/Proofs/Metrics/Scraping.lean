import Slab.Metrics.Registry
import Slab.Metrics.Scrape
import Slab.Proofs.Numeral

/-!
# What is shown is read

A monitoring system that reads the text of families reads those families.

* `isPlain`, `Plain`: the characters of names, bounds and numbers, none of which ends what it is
  part of;
* `plain_plainText`: the text of a floating point number is plain;
* `Values.samples`, `Family.reading`: what there is to be read of a family;
* `Readable`: a family whose name and meaning can be told apart from the rest of their line;
* `read?_textOf`: **the text of readable families is read as these families**.
-/

namespace Slab.Metrics

/-! ### Characters -/

/-- A character that ends neither a name, nor a bound, nor a number. -/
def isPlain (c : Char) : Bool := c.isAlphanum || c == '_' || c == '-' || c == '.' || c == '+'

/-- A text of such characters. -/
def Plain (s : String) : Prop := s.toList.all isPlain = true

instance (s : String) : Decidable (Plain s) := inferInstanceAs (Decidable (_ = true))

theorem plain_iff {s : String} : Plain s ↔ ∀ c ∈ s.toList, isPlain c = true := List.all_eq_true

theorem isPlain_of_isDigit {c : Char} (h : c.isDigit = true) : isPlain c = true := by
  simp [isPlain, Char.isAlphanum, h]

namespace Plain

variable {s t : String}

theorem not_mem (h : Plain s) {c : Char} (hc : isPlain c = false) : c ∉ s.toList := by
  intro hmem
  rw [plain_iff.1 h c hmem] at hc
  cases hc

theorem append (hs : Plain s) (ht : Plain t) : Plain (s ++ t) := by
  rw [plain_iff] at hs ht ⊢
  intro c hc
  rw [String.toList_append, List.mem_append] at hc
  exact hc.elim (hs c) (ht c)

theorem decimal (n : ℕ) : Plain (Numeral.decimal n) :=
  plain_iff.2 fun _ hc => isPlain_of_isDigit (Numeral.isDigit_of_mem_decimal hc)

end Plain

/-- The digits of a decimal in front of its point and after it. -/
theorem isDigit_of_mem_split (d : Digits) :
    ∀ c ∈ d.split.1 ++ d.split.2, c.isDigit = true := by
  have htext : ∀ c ∈ d.text, c.isDigit = true := fun _ hc => Numeral.isDigit_of_mem_decimal hc
  have hzeros : ∀ n, ∀ c ∈ Digits.zeros n, c.isDigit = true := by
    intro n c hc
    rw [List.eq_of_mem_replicate hc]
    rfl
  intro c hc
  unfold Digits.split at hc
  dsimp only at hc
  split_ifs at hc
  · rw [List.append_nil] at hc
    exact (List.mem_append.1 hc).elim (htext c) (hzeros _ c)
  · rw [List.singleton_append] at hc
    rcases List.mem_cons.1 hc with rfl | hc
    · rfl
    · exact (List.mem_append.1 hc).elim (hzeros _ c) (htext c)
  · rw [List.take_append_drop] at hc
    exact htext c hc

/-- The text of a floating point number is plain. -/
theorem plain_plainText (x : Binary64) : Plain x.plainText := by
  have hsign : ∀ negative, Plain (Binary64.signText negative) := by decide
  unfold Binary64.plainText
  split
  · decide
  · rename_i negative _
    exact (hsign negative).append (by decide)
  · rename_i negative m q _
    split
    · exact (hsign negative).append (.decimal _)
    · have hdigits := isDigit_of_mem_split (Digits.shortest m q)
      refine (hsign negative).append (plain_iff.2 fun c hc => ?_)
      rw [String.toList_ofList] at hc
      split_ifs at hc
      · exact isPlain_of_isDigit (hdigits c (List.mem_append_left _ hc))
      · rcases List.mem_append.1 hc with hc | hc
        · exact isPlain_of_isDigit (hdigits c (List.mem_append_left _ hc))
        · rcases List.mem_cons.1 hc with rfl | hc
          · rfl
          · exact isPlain_of_isDigit (hdigits c (List.mem_append_right _ hc))

/-! ### Lines -/

namespace Sample

/-- The part of a line in front of the value. -/
def label (s : Sample) : String :=
  match s.bound with
  | some bound => boundedName s.name bound
  | none => s.name

/-- The line that shows a value. -/
def line (s : Sample) : String := sampleLine s.label s.value

/-- Name, bound and value are plain. -/
structure Plain (s : Sample) : Prop where
  name : Metrics.Plain s.name
  bound : ∀ b ∈ s.bound, Metrics.Plain b
  value : Metrics.Plain s.value

end Sample

/-- The values that a family shows. -/
def Values.samples (name : String) : Values → List Sample
  | counter total => [⟨name, none, naturalText total.toNat⟩]
  | gauge word => [⟨name, none, integerText (Metrics.gauge word)⟩]
  | histogram h =>
    (h.covered.map fun p =>
      ⟨name ++ "_bucket", some (naturalText p.1), naturalText p.2.toNat⟩) ++
    [⟨name ++ "_bucket", some "+Inf", naturalText h.count.toNat⟩,
      ⟨name ++ "_sum", none, h.sum.plainText⟩,
      ⟨name ++ "_count", none, naturalText h.count.toNat⟩]

theorem Values.lines_eq (name : String) (v : Values) :
    v.lines name = (v.samples name).map Sample.line := by
  cases v with
  | counter total => rfl
  | gauge word => rfl
  | histogram h =>
    rw [lines, samples, List.map_append, List.map_map]
    rfl

theorem Values.plain_samples {name : String} (h : Metrics.Plain name) (v : Values) :
    ∀ s ∈ v.samples name, s.Plain := by
  have hnone : ∀ b ∈ (none : Option String), Metrics.Plain b := fun b hb => by cases hb
  have hnumber (n : ℕ) : Metrics.Plain (naturalText n) := plain_plainText _
  cases v with
  | counter total =>
    intro s hs
    cases List.mem_singleton.1 hs
    exact ⟨h, hnone, hnumber _⟩
  | gauge word =>
    intro s hs
    cases List.mem_singleton.1 hs
    exact ⟨h, hnone, plain_plainText _⟩
  | histogram g =>
    intro s hs
    simp only [samples, List.mem_append, List.mem_map, List.mem_cons, List.not_mem_nil,
      or_false] at hs
    have hbucket : Metrics.Plain (name ++ "_bucket") := h.append (by decide)
    rcases hs with ⟨p, -, rfl⟩ | rfl | rfl | rfl
    · exact ⟨hbucket, fun b hb => by cases hb; exact hnumber _, hnumber _⟩
    · exact ⟨hbucket, fun b hb => by cases hb; decide, hnumber _⟩
    · exact ⟨h.append (by decide), hnone, plain_plainText _⟩
    · exact ⟨h.append (by decide), hnone, hnumber _⟩

theorem Values.plain_kind (v : Values) : Metrics.Plain v.kind := by
  unfold kind
  split <;> decide

namespace Scrape

/-- A bound in braces is read. -/
theorem bound?_eq {b : String} (h : Plain b) :
    bound? ("le=\"".toList ++ (b.toList ++ ['"', '\x7d'])) = some b := by
  have hquote : '"' ∉ b.toList := h.not_mem rfl
  have hkey : Text.cutFirst '"' ("le=\"".toList ++ (b.toList ++ ['"', '\x7d'])) =
      some ("le=".toList, b.toList ++ ['"', '\x7d']) :=
    Text.cutFirst_append (a := "le=".toList) (by decide) _
  unfold bound?
  rw [hkey]
  simp only [if_true, Text.cutFirst_append hquote, String.ofList_toList]

theorem sample?_eq {s : Sample} (h : s.Plain) :
    sample? s.label.toList s.value.toList = some s := by
  obtain ⟨name, bound, value⟩ := s
  have hbrace : '\x7b' ∉ name.toList := h.name.not_mem rfl
  cases bound with
  | none =>
    simp only [sample?, Sample.label, Text.cutFirst_eq_none_iff.2 hbrace, String.ofList_toList]
  | some b =>
    have hlabel : (boundedName name b).toList =
        name.toList ++ '\x7b' :: ("le=\"".toList ++ (b.toList ++ ['"', '\x7d'])) := by
      simp [boundedName, String.toList_append, List.append_assoc]
    simp only [sample?, Sample.label, hlabel, Text.cutFirst_append hbrace,
      bound?_eq (h.bound b rfl), Option.map_some, String.ofList_toList]

/-- No sign that ends a label, a line or a remark's mark stands in a label. -/
theorem not_mem_label {s : Sample} (h : s.Plain) {c : Char} (hc : isPlain c = false)
    (hbraces : c ∉ ['\x7b', 'l', 'e', '=', '"', '\x7d']) : c ∉ s.label.toList := by
  obtain ⟨name, bound, value⟩ := s
  have hname : c ∉ name.toList := h.name.not_mem hc
  cases bound with
  | none => exact hname
  | some b =>
    have hbound : c ∉ b.toList := (h.bound b rfl).not_mem hc
    simp only [List.mem_cons, List.not_mem_nil, or_false, not_or] at hbraces
    simp [Sample.label, boundedName, String.toList_append, hname, hbound, hbraces]

theorem toList_line (s : Sample) :
    s.line.toList = s.label.toList ++ ' ' :: s.value.toList := by
  simp [Sample.line, sampleLine, String.toList_append]

/-- The line of a value is read as this value. -/
theorem line?_sample {s : Sample} (h : s.Plain) : line? s.line.toList = some (.sample s) := by
  have hblank : ' ' ∉ s.label.toList := not_mem_label h rfl (by decide)
  have hmark : s.label.toList ≠ ['#'] := fun he =>
    not_mem_label h (c := '#') rfl (by decide) (he ▸ List.mem_singleton_self _)
  rw [line?, toList_line, Text.cutFirst_append hblank]
  simp only [if_neg hmark, sample?_eq h, Option.map_some]

/-- A remark is read, whatever its text. -/
theorem line?_remark {word name : String} (hword : ' ' ∉ word.toList) (hname : ' ' ∉ name.toList)
    (text : String) :
    line? ("# " ++ word ++ " " ++ name ++ " " ++ text).toList =
      if word.toList = "HELP".toList then some (.help name text)
      else if word.toList = "TYPE".toList then some (.kind name text) else none := by
  have hline : ("# " ++ word ++ " " ++ name ++ " " ++ text).toList =
      ['#'] ++ ' ' :: (word.toList ++ ' ' :: (name.toList ++ ' ' :: text.toList)) := by
    simp [String.toList_append]
  rw [line?, hline, Text.cutFirst_append (by decide)]
  simp only [if_true, remark?, Text.cutFirst_append hword, Text.cutFirst_append hname,
    String.ofList_toList]

end Scrape

/-! ### Families -/

/-- What there is to be read of a family. -/
def Family.reading (f : Family) : Reading :=
  ⟨f.name, f.help, f.values.kind, f.values.samples f.name⟩

/-- A family whose name is plain and whose meaning is one line. -/
structure Readable (f : Family) : Prop where
  name : Plain f.name
  help : '\n' ∉ f.help.toList

namespace Scrape

/-- The lines of a family, once read. -/
def linesOf (f : Family) : List Line :=
  .help f.name f.help :: .kind f.name f.values.kind ::
    (f.values.samples f.name).map Line.sample

variable {f : Family} {fs : List Family}

theorem line?_help (h : Readable f) :
    line? ("# HELP " ++ f.name ++ " " ++ f.help).toList = some (.help f.name f.help) := by
  have hword : ' ' ∉ "HELP".toList := by decide
  exact line?_remark hword (h.name.not_mem rfl) f.help

theorem line?_kind (h : Readable f) :
    line? ("# TYPE " ++ f.name ++ " " ++ f.values.kind).toList =
      some (.kind f.name f.values.kind) := by
  have hword : ' ' ∉ "TYPE".toList := by decide
  exact line?_remark hword (h.name.not_mem rfl) f.values.kind

theorem lines?_append {a b : List (List Char)} {l m : List Line} (ha : lines? a = some l)
    (hb : lines? b = some m) : lines? (a ++ b) = some (l ++ m) := by
  induction a generalizing l with
  | nil =>
    cases ha
    exact hb
  | cons s a ih =>
    rw [lines?] at ha
    split at ha
    · rename_i x y hx hy
      cases ha
      simp only [List.cons_append, lines?, hx, ih hy]
    · cases ha

theorem lines?_samples {l : List Sample} (h : ∀ s ∈ l, s.Plain) :
    lines? ((l.map Sample.line).map String.toList) = some (l.map Line.sample) := by
  induction l with
  | nil => rfl
  | cons s l ih =>
    rw [List.forall_mem_cons] at h
    simp only [List.map_cons, lines?, line?_sample h.1, ih h.2]

theorem lines?_family (h : Readable f) : lines? (f.lines.map String.toList) = some (linesOf f) := by
  have hsamples := lines?_samples (f.values.plain_samples h.name)
  rw [← Values.lines_eq] at hsamples
  simp only [Family.lines, List.cons_append, List.nil_append, List.map_cons, lines?, line?_help h,
    line?_kind h, hsamples, linesOf]

theorem lines?_families (h : ∀ f ∈ fs, Readable f) :
    lines? ((fs.flatMap Family.lines).map String.toList) = some (fs.flatMap linesOf) := by
  induction fs with
  | nil => rfl
  | cons f fs ih =>
    rw [List.forall_mem_cons] at h
    rw [List.flatMap_cons, List.map_append, List.flatMap_cons]
    exact lines?_append (lines?_family h.1) (ih h.2)

theorem group?_samples (l : List Sample) (m : List Line) :
    group? (l.map Line.sample ++ m) = (group? m).map fun p => (l ++ p.1, p.2) := by
  induction l with
  | nil =>
    simp
  | cons s l ih =>
    simp only [List.map_cons, List.cons_append, group?, ih, Option.map_map]
    rfl

theorem group?_families (fs : List Family) :
    group? (fs.flatMap linesOf) = some ([], fs.map Family.reading) := by
  induction fs with
  | nil => rfl
  | cons f fs ih =>
    simp only [List.flatMap_cons, linesOf, List.cons_append, group?, if_true, group?_samples, ih,
      Option.map_some, List.append_nil, List.map_cons, Family.reading]

/-! ### Texts -/

theorem ended?_concat (l : List (List Char)) : ended? (l ++ [[]]) = some l := by
  induction l with
  | nil => rfl
  | cons s l ih =>
    cases l with
    | nil => rfl
    | cons t l =>
      rw [List.cons_append] at ih
      simp only [List.cons_append, ended?, ih, Option.map_some]

/-- Lines that are all ended are told apart. -/
theorem pieces_join {l : List String} (h : ∀ s ∈ l, '\n' ∉ s.toList) :
    Text.pieces '\n' (String.join (l.map fun s => s ++ "\n")).toList =
      l.map String.toList ++ [[]] := by
  rw [String.toList_join]
  induction l with
  | nil => rfl
  | cons s l ih =>
    rw [List.forall_mem_cons] at h
    rw [List.map_cons, List.flatMap_cons, String.toList_append, List.append_assoc]
    exact (Text.pieces_append h.1 _).trans (congrArg _ (ih h.2))

/-- No line of a readable family is broken. -/
theorem newline_not_mem_lines (h : Readable f) : ∀ s ∈ f.lines, '\n' ∉ s.toList := by
  have hname : '\n' ∉ f.name.toList := h.name.not_mem rfl
  have hkind : '\n' ∉ f.values.kind.toList := f.values.plain_kind.not_mem rfl
  rw [Family.lines, Values.lines_eq]
  intro s hs
  simp only [List.cons_append, List.nil_append, List.mem_cons, List.mem_map] at hs
  rcases hs with rfl | rfl | ⟨v, hv, rfl⟩
  · simp [String.toList_append, hname, h.help]
  · simp [String.toList_append, hname, hkind]
  · have hplain := f.values.plain_samples h.name v hv
    have hlabel : '\n' ∉ v.label.toList := not_mem_label hplain rfl (by decide)
    have hvalue : '\n' ∉ v.value.toList := hplain.value.not_mem rfl
    simp [toList_line, hlabel, hvalue]

/-- **The text of readable families is read as these families.** -/
theorem read?_textOf (h : ∀ f ∈ fs, Readable f) :
    read? (textOf fs) = some (fs.map Family.reading) := by
  have hlines : ∀ s ∈ fs.flatMap Family.lines, '\n' ∉ s.toList := by
    intro s hs
    obtain ⟨f, hf, hs⟩ := List.mem_flatMap.1 hs
    exact newline_not_mem_lines (h f hf) s hs
  rw [read?, textOf, pieces_join hlines, ended?_concat, Option.bind_some, lines?_families h,
    Option.bind_some, families?, group?_families]

end Scrape
end Slab.Metrics
