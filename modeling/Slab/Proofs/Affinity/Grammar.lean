import Mathlib.Data.List.Forall2
import Mathlib.Data.List.Intervals
import Slab.Affinity.Placement
import Slab.Proofs.Numeral
import Slab.Proofs.Text

/-!
# Which lists of numbers can be read

The notation of lists of processor and domain numbers as a grammar. A text can be read if it is a
text of the grammar, and the numbers read are those that the grammar gives it. Any other text is
reported as it was given.

* `IdList.Num`: a number of 32 bits with blanks around it;
* `IdList.Part`: a number, or two numbers around a dash that stand for all numbers in between;
* `IdList.Lists`: a whole text;
* `number?_eq_some_iff`, `part?_eq_some_iff`, `read?_eq_some_iff`: what the reader finds at each
  level is what the grammar says;
* `Affinity.parse_by_grammar`: **what is read, and what is reported**.
-/

namespace Slab

namespace IdList

variable {s t : List Char} {n : ℕ} {ids : List ℕ}

/-! ### The grammar -/

/-- The text is the number: one or more digits, after a plus sign or not, with blanks around it. A
word of 32 bits holds the number. -/
inductive Num : List Char → ℕ → Prop
  | intro {before sign digits after : List Char} (hbefore : Text.Blank before)
      (hsign : sign = [] ∨ sign = ['+']) (hdigits : Numeral.Digits digits)
      (hafter : Text.Blank after) (hlt : Nat.ofDigitChars 10 digits 0 < UInt32.size) :
      Num (before ++ (sign ++ digits) ++ after) (Nat.ofDigitChars 10 digits 0)

/-- The part of a text stands for the numbers. -/
inductive Part : List Char → List ℕ → Prop
  | one {s : List Char} {n : ℕ} (h : Num s n) : Part s [n]
  | range {s t : List Char} {m n : ℕ} (hs : Num s m) (ht : Num t n) (hle : m ≤ n) :
      Part (s ++ '-' :: t) (List.Ico m (n + 1))

/-- The text lists the numbers, part by part in the order of the text. Parts are what stands between
commas, if anything does, once the blanks at both ends of the text are taken away. -/
inductive Lists : List Char → List ℕ → Prop
  | intro {s t : List Char} {groups : List (List ℕ)} (htrim : Text.Trims s t)
      (hparts : List.Forall₂ Part ((t.splitOn ',').filter (· ≠ [])) groups) :
      Lists s groups.flatten

/-! ### Numbers -/

theorem Num.lt (h : Num s n) : n < UInt32.size := by
  obtain ⟨-, -, -, -, hlt⟩ := h
  exact hlt

/-- A number without the blanks around it. -/
theorem trims_num {before sign digits after : List Char} (hbefore : Text.Blank before)
    (hsign : sign = [] ∨ sign = ['+']) (hdigits : Numeral.Digits digits)
    (hafter : Text.Blank after) :
    Text.Trims (before ++ (sign ++ digits) ++ after) (sign ++ digits) where
  blanks := ⟨before, after, rfl, hbefore, hafter⟩
  head c hc := by
    rcases hsign with rfl | rfl
    · exact hdigits.isBlank_eq c (List.mem_of_mem_head? hc)
    · cases hc
      rfl
  last c hc := by
    rw [List.getLast?_append_of_ne_nil _ hdigits.ne_nil] at hc
    exact hdigits.isBlank_eq c (List.mem_of_mem_getLast? hc)

theorem number?_eq_some_iff : number? s = some n ↔ Num s n := by
  unfold number?
  rw [Numeral.unsigned?_eq_some_iff]
  constructor
  · rintro ⟨sign, digits, htrim, hsign, hdigits, rfl, hlt⟩
    obtain ⟨⟨before, after, hs, hbefore, hafter⟩, -, -⟩ := Text.trims_iff.2 htrim
    rw [hs]
    exact .intro hbefore hsign hdigits hafter hlt
  · rintro ⟨hbefore, hsign, hdigits, hafter, hlt⟩
    exact ⟨_, _, (trims_num hbefore hsign hdigits hafter).trim_eq, hsign, hdigits, rfl, hlt⟩

/-! ### Parts -/

/-- A dash belongs to no number. -/
theorem Num.dash_not_mem (h : Num s n) : '-' ∉ s := by
  obtain ⟨hbefore, hsign, hdigits, hafter, -⟩ := h
  intro hc
  rcases List.mem_append.1 hc with hc | hc
  · rcases List.mem_append.1 hc with hc | hc
    · exact absurd (hbefore _ hc) (by decide)
    · rcases List.mem_append.1 hc with hc | hc
      · rcases hsign with rfl | rfl
        · cases hc
        · exact absurd (List.mem_singleton.1 hc) (by decide)
      · exact absurd (hdigits.isDigit _ hc) (by decide)
  · exact absurd (hafter _ hc) (by decide)

theorem Part.lt (h : Part s ids) : ∀ n ∈ ids, n < UInt32.size := by
  rcases h with hn | ⟨-, ht, -⟩
  · exact List.forall_mem_singleton.2 hn.lt
  · intro k hk
    have hle := (List.Ico.mem.1 hk).2
    have hlt := ht.lt
    omega

theorem part?_eq_some_iff : part? s = some ids ↔ Part s ids := by
  constructor
  · intro h
    unfold part? at h
    split at h
    · rename_i a b hcut
      obtain ⟨rfl, -⟩ := Text.cutFirst_eq_some hcut
      split at h
      · rename_i m n hm hn
        split_ifs at h with hle
        cases h
        exact .range (number?_eq_some_iff.1 hm) (number?_eq_some_iff.1 hn) hle
      · cases h
    · obtain ⟨n, hn, rfl⟩ := Option.map_eq_some_iff.1 h
      exact .one (number?_eq_some_iff.1 hn)
  · rintro (hn | ⟨hm, hn, hle⟩)
    · rw [part?, Text.cutFirst_eq_none_iff.2 hn.dash_not_mem, number?_eq_some_iff.2 hn]
      rfl
    · -- the first dash is the one between the numbers
      rw [part?, Text.cutFirst_append hm.dash_not_mem]
      dsimp only
      rw [number?_eq_some_iff.2 hm, number?_eq_some_iff.2 hn]
      exact if_pos hle

/-! ### Texts -/

theorem concat?_eq_some_iff {ps : List (List Char)} :
    concat? ps = some ids ↔ ∃ groups, List.Forall₂ Part ps groups ∧ groups.flatten = ids := by
  induction ps generalizing ids with
  | nil =>
    constructor
    · intro h
      cases h
      exact ⟨[], .nil, rfl⟩
    · rintro ⟨groups, hg, rfl⟩
      cases hg
      rfl
  | cons p ps ih =>
    constructor
    · intro h
      unfold concat? at h
      split at h
      · rename_i a b ha hb
        cases h
        obtain ⟨groups, hg, rfl⟩ := ih.1 hb
        exact ⟨a :: groups, .cons (part?_eq_some_iff.1 ha) hg, rfl⟩
      · cases h
    · rintro ⟨groups, hg, rfl⟩
      cases hg with
      | cons ha hg =>
        rw [concat?, part?_eq_some_iff.2 ha, ih.2 ⟨_, hg, rfl⟩]
        rfl

theorem parts_eq (h : Text.Trims s t) : parts s = (t.splitOn ',').filter (· ≠ []) := by
  rw [parts, h.trim_eq, Text.pieces_eq_splitOn]
  congr
  funext p
  cases p <;> rfl

theorem read?_eq_some_iff {list : String} : read? list = some ids ↔ Lists list.toList ids := by
  unfold read?
  rw [concat?_eq_some_iff]
  constructor
  · rintro ⟨groups, hg, rfl⟩
    have htrim := Text.trims_trim list.toList
    rw [parts_eq htrim] at hg
    exact .intro htrim hg
  · intro h
    generalize list.toList = s at h ⊢
    obtain ⟨htrim, hg⟩ := h
    exact ⟨_, parts_eq htrim ▸ hg, rfl⟩

/-- A word of 32 bits holds every number of a list. -/
theorem Lists.lt (h : Lists s ids) : ∀ n ∈ ids, n < UInt32.size := by
  obtain ⟨-, hg⟩ := h
  generalize List.filter _ _ = ps at hg
  induction hg with
  | nil => exact List.forall_mem_nil _
  | cons hp _ ih =>
    rw [List.flatten_cons]
    exact List.forall_mem_append.2 ⟨hp.lt, ih⟩

end IdList

namespace Affinity

/-- **A text is read by the grammar, and any other text is reported as it was given.** -/
theorem parse_by_grammar (list : String) :
    (∀ ids, parseIdList list = .ok ids ↔ IdList.Lists list.toList ids) ∧
      ∀ e, parseIdList list = .error e ↔
        (¬ ∃ ids, IdList.Lists list.toList ids) ∧ e = .malformed list := by
  simp only [← IdList.read?_eq_some_iff]
  unfold parseIdList
  cases IdList.read? list with
  | none =>
    refine ⟨fun ids => ⟨nofun, nofun⟩, fun e => ⟨fun he => ?_, fun he => ?_⟩⟩
    · exact ⟨nofun, (Except.error.inj he).symm⟩
    · rw [he.2]
  | some ids =>
    refine ⟨fun ids' => ⟨fun hids => ?_, fun hids => ?_⟩, fun e => ⟨nofun, fun he => ?_⟩⟩
    · rw [Except.ok.inj hids]
    · rw [Option.some.inj hids]
    · exact absurd ⟨ids, rfl⟩ he.1

/-- Empty parts count for nothing, blanks stand around each number, and a number may come twice. -/
example : parseIdList " 1 - +3,,2 \n" = .ok [1, 2, 3, 2] := by decide

/-- A part of blanks is not empty. -/
example : parseIdList "1, ,2" = .error (.malformed "1, ,2") := by decide

end Affinity
end Slab
