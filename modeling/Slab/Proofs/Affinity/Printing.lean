import Mathlib.Data.List.Chain
import Slab.Proofs.Affinity.Grammar

/-!
# Lists of numbers as the kernel prints them

An ascending list is printed as its maximal runs of consecutive numbers. There is one way to do so,
and what is printed is read back.

* `IdList.MaximalRuns`: the maximal runs of a list, which `maximalRuns_iff` shows to be unique;
* `IdList.Printed`: the list as the kernel prints it, which `printed_iff` shows to be what `write`
  gives;
* `lists_write`: what is written is a text of the grammar;
* `Affinity.parse_printed`: **what is printed is read back**.
-/

namespace Slab

namespace IdList

variable {ids ns : List ℕ} {rs : List (ℕ × ℕ)} {a b n : ℕ}

/-! ### Runs -/

/-- The numbers of a run. -/
def expand (r : ℕ × ℕ) : List ℕ := List.Ico r.1 (r.2 + 1)

/-- The maximal runs of consecutive numbers in a list, in order. No two of them follow each other
without a gap. -/
structure MaximalRuns (ids : List ℕ) (rs : List (ℕ × ℕ)) : Prop where
  le : ∀ r ∈ rs, r.1 ≤ r.2
  gaps : rs.IsChain fun r r' => r.2 + 1 < r'.1
  flatMap_eq : rs.flatMap expand = ids

namespace MaximalRuns

theorem nil : MaximalRuns [] [] := ⟨List.forall_mem_nil _, .nil, rfl⟩

theorem last_mem (h : MaximalRuns ids rs) {r : ℕ × ℕ} (hr : r ∈ rs) : r.2 ∈ ids := by
  rw [← h.flatMap_eq]
  exact List.mem_flatMap.2 ⟨r, hr, List.Ico.mem.2 ⟨h.le r hr, Nat.lt_succ_self r.2⟩⟩

theorem tail {r : ℕ × ℕ} (h : MaximalRuns ids (r :: rs)) :
    MaximalRuns (rs.flatMap expand) rs where
  le s hs := h.le s (List.mem_cons_of_mem r hs)
  gaps := h.gaps.tail
  flatMap_eq := rfl

/-- A number right before the first run belongs to it. -/
theorem extend (h : MaximalRuns ns ((n + 1, b) :: rs)) : MaximalRuns (n :: ns) ((n, b) :: rs) where
  le := by
    have hle := h.le (n + 1, b) List.mem_cons_self
    exact List.forall_mem_cons.2 ⟨Nat.le_of_succ_le hle, fun r hr => h.le r (.tail _ hr)⟩
  gaps := by
    have hgaps := h.gaps
    rw [List.isChain_cons] at hgaps ⊢
    exact hgaps
  flatMap_eq := by
    have hle : n + 1 ≤ b := h.le (n + 1, b) List.mem_cons_self
    rw [← h.flatMap_eq, List.flatMap_cons, List.flatMap_cons, expand, expand,
      List.Ico.eq_cons (Nat.lt_succ_of_le (Nat.le_of_succ_le hle)), List.cons_append]

/-- A number before a gap is a run of its own. -/
theorem cons (h : MaximalRuns ns rs) (hgap : ∀ r ∈ rs.head?, n + 1 < r.1) :
    MaximalRuns (n :: ns) ((n, n) :: rs) where
  le := List.forall_mem_cons.2 ⟨Nat.le_refl n, h.le⟩
  gaps := List.isChain_cons.2 ⟨hgap, h.gaps⟩
  flatMap_eq := by
    rw [List.flatMap_cons, h.flatMap_eq, expand, List.Ico.succ_singleton]
    rfl

end MaximalRuns

theorem maximalRuns_runs (h : ids.Pairwise (· < ·)) : MaximalRuns ids (runs ids) := by
  induction ids with
  | nil => exact .nil
  | cons n ns ih =>
    rw [List.pairwise_cons] at h
    have hruns := ih h.2
    unfold runs
    cases hrs : runs ns with
    | nil =>
      rw [hrs] at hruns
      exact hruns.cons nofun
    | cons r rs =>
      obtain ⟨a, b⟩ := r
      rw [hrs] at hruns
      dsimp only
      split_ifs with ha
      · subst ha
        exact hruns.extend
      · refine hruns.cons fun r hr => ?_
        cases hr
        -- the first number of the run is in the list, so it is larger
        have hmem : a ∈ ns := by
          rw [← hruns.flatMap_eq]
          have hle := hruns.le (a, b) List.mem_cons_self
          exact List.mem_flatMap.2
            ⟨(a, b), List.mem_cons_self, List.Ico.mem.2 ⟨Nat.le_refl a, Nat.lt_succ_of_le hle⟩⟩
        have hlt := h.1 a hmem
        show n + 1 < a
        omega

/-- A run in front of a list that goes on after a gap. -/
theorem runs_append (hle : a ≤ b) (hgap : ∀ r ∈ (runs ns).head?, b + 1 < r.1) :
    runs (List.Ico a (b + 1) ++ ns) = (a, b) :: runs ns := by
  induction hle using Nat.decreasingInduction with
  | self =>
    rw [List.Ico.succ_singleton, List.singleton_append, runs]
    cases hrs : runs ns with
    | nil => rfl
    | cons r rs =>
      rw [hrs] at hgap
      have hlt := hgap r rfl
      exact if_neg (by omega)
  | of_succ k hk ih =>
    rw [List.Ico.eq_cons (Nat.lt_succ_of_lt hk), List.cons_append, runs, ih]
    exact if_pos rfl

/-- **There is one way to cut an ascending list into maximal runs.** -/
theorem maximalRuns_iff (h : ids.Pairwise (· < ·)) : MaximalRuns ids rs ↔ rs = runs ids := by
  refine ⟨fun hrs => ?_, fun hrs => hrs ▸ maximalRuns_runs h⟩
  clear h
  induction rs generalizing ids with
  | nil =>
    rw [← hrs.flatMap_eq]
    rfl
  | cons r rs ih =>
    have htail := ih hrs.tail
    have hgaps := hrs.gaps
    rw [List.isChain_cons, htail] at hgaps
    rw [← hrs.flatMap_eq, List.flatMap_cons, expand,
      runs_append (hrs.le r List.mem_cons_self) hgaps.1, ← htail]

/-! ### Texts -/

/-- A run as it is printed. -/
inductive PrintedRun : ℕ × ℕ → List Char → Prop
  | one (n : ℕ) : PrintedRun (n, n) n.repr.toList
  | more {a b : ℕ} (h : a < b) : PrintedRun (a, b) (a.repr.toList ++ '-' :: b.repr.toList)

/-- A list as it is printed: its runs with commas in between, and a line break. -/
inductive Printed : List ℕ → String → Prop
  | intro {ids : List ℕ} {rs : List (ℕ × ℕ)} {texts : List (List Char)} (hruns : MaximalRuns ids rs)
      (htexts : List.Forall₂ PrintedRun rs texts) :
      Printed ids (String.ofList ([','].intercalate texts ++ ['\n']))

theorem printedRun_iff {r : ℕ × ℕ} {t : List Char} (h : r.1 ≤ r.2) :
    PrintedRun r t ↔ t = writeRun r := by
  obtain ⟨a, b⟩ := r
  unfold writeRun
  constructor
  · rintro (n | hlt)
    · rw [if_pos rfl]
      rfl
    · rw [if_neg (Nat.ne_of_lt hlt)]
      rfl
  · rintro rfl
    by_cases hab : a = b
    · subst hab
      rw [if_pos rfl]
      exact .one a
    · rw [if_neg hab]
      exact .more (Nat.lt_of_le_of_ne h hab)

theorem forall₂_printedRun_iff {texts : List (List Char)} (h : ∀ r ∈ rs, r.1 ≤ r.2) :
    List.Forall₂ PrintedRun rs texts ↔ texts = rs.map writeRun := by
  induction rs generalizing texts with
  | nil => exact List.forall₂_nil_left_iff
  | cons r rs ih =>
    rw [List.forall_mem_cons] at h
    rw [List.forall₂_cons_left_iff, List.map_cons]
    simp only [printedRun_iff h.1, ih h.2]
    constructor
    · rintro ⟨t, ts, rfl, rfl, rfl⟩
      rfl
    · rintro rfl
      exact ⟨_, _, rfl, rfl, rfl⟩

/-- **There is one way to print an ascending list.** -/
theorem printed_iff (h : ids.Pairwise (· < ·)) {text : String} :
    Printed ids text ↔ text = write ids := by
  have hruns := maximalRuns_runs h
  have htexts := (forall₂_printedRun_iff hruns.le).2 rfl
  have hwrite : write ids =
      String.ofList ([','].intercalate ((runs ids).map writeRun) ++ ['\n']) := by
    rw [write, Text.joinWith_eq_intercalate]
  rw [hwrite]
  constructor
  · rintro ⟨hrs, hts⟩
    cases (maximalRuns_iff h).1 hrs
    rw [(forall₂_printedRun_iff hruns.le).1 hts]
  · rintro rfl
    exact .intro hruns htexts

/-! ### Reading back -/

theorem num_decimal (h : n < UInt32.size) : Num (Numeral.decimal n).toList n := by
  rw [← number?_eq_some_iff, number?,
    Text.trim_eq_self (Numeral.digits_decimal n).isBlank_eq]
  exact Numeral.unsigned?_decimal h

/-- A run that is written is a part of the grammar. -/
theorem part_writeRun {r : ℕ × ℕ} (hle : r.1 ≤ r.2) (hlt : r.2 < UInt32.size) :
    Part (writeRun r) (expand r) := by
  unfold writeRun expand
  split_ifs with h
  · rw [h, List.Ico.succ_singleton]
    exact .one (num_decimal hlt)
  · exact .range (num_decimal (Nat.lt_of_le_of_lt hle hlt)) (num_decimal hlt) hle

theorem writeRun_ne_nil (r : ℕ × ℕ) : writeRun r ≠ [] := by
  unfold writeRun
  split_ifs
  · exact Numeral.toList_decimal_ne_nil r.1
  · exact List.append_ne_nil_of_right_ne_nil _ (List.cons_ne_nil _ _)

/-- A run is written with digits and a dash. -/
theorem mem_writeRun {r : ℕ × ℕ} {c : Char} (h : c ∈ writeRun r) : c.isDigit = true ∨ c = '-' := by
  unfold writeRun at h
  split_ifs at h
  · exact Or.inl (Numeral.isDigit_of_mem_decimal h)
  · rcases List.mem_append.1 h with h | h
    · exact Or.inl (Numeral.isDigit_of_mem_decimal h)
    · rcases List.mem_cons.1 h with h | h
      · exact Or.inr h
      · exact Or.inl (Numeral.isDigit_of_mem_decimal h)

theorem comma_not_mem_writeRun (r : ℕ × ℕ) : ',' ∉ writeRun r := by
  intro h
  rcases mem_writeRun h with h | h <;> exact absurd h (by decide)

theorem isBlank_of_mem_writeRun {r : ℕ × ℕ} {c : Char} (h : c ∈ writeRun r) :
    Text.isBlank c = false := by
  rcases mem_writeRun h with h | rfl
  · refine Text.isBlank_of_isAlphanum ?_
    rw [Char.isAlphanum, h, Bool.or_true]
  · rfl

/-- The pieces between the commas are the runs. -/
theorem splitOn_intercalate_map (rs : List (ℕ × ℕ)) :
    (([','].intercalate (rs.map writeRun)).splitOn ',').filter (· ≠ []) = rs.map writeRun := by
  cases rs with
  | nil => rfl
  | cons r rs =>
    rw [List.splitOn_intercalate, List.filter_eq_self]
    · intro t ht
      obtain ⟨r, -, rfl⟩ := List.mem_map.1 ht
      exact decide_eq_true (writeRun_ne_nil r)
    · intro t ht
      obtain ⟨r, -, rfl⟩ := List.mem_map.1 ht
      exact comma_not_mem_writeRun r
    · exact List.cons_ne_nil _ _

/-- **What is written is a text of the grammar.** -/
theorem lists_write (h : ids.Pairwise (· < ·)) (hlt : ∀ n ∈ ids, n < UInt32.size) :
    Lists (write ids).toList ids := by
  have hruns := maximalRuns_runs h
  have htrim : Text.Trims (write ids).toList ([','].intercalate ((runs ids).map writeRun)) := by
    -- the line break is the only blank
    have hblank : ∀ c ∈ [','].intercalate ((runs ids).map writeRun), Text.isBlank c = false := by
      rw [← Text.joinWith_eq_intercalate]
      have hcomma : Text.isBlank ',' = false := rfl
      refine Text.forall_mem_joinWith hcomma (List.forall_mem_map.2 fun r _ c hc => ?_)
      exact isBlank_of_mem_writeRun hc
    refine ⟨⟨[], ['\n'], ?_, List.forall_mem_nil _, List.forall_mem_singleton.2 rfl⟩, ?_, ?_⟩
    · rw [write, String.toList_ofList, Text.joinWith_eq_intercalate, List.nil_append]
    · exact fun c hc => hblank c (List.mem_of_mem_head? hc)
    · exact fun c hc => hblank c (List.mem_of_mem_getLast? hc)
  have hparts : List.Forall₂ Part
      ((([','].intercalate ((runs ids).map writeRun)).splitOn ',').filter (· ≠ []))
      ((runs ids).map expand) := by
    rw [splitOn_intercalate_map, List.forall₂_map_left_iff, List.forall₂_map_right_iff,
      List.forall₂_same]
    exact fun r hr => part_writeRun (hruns.le r hr) (hlt _ (hruns.last_mem hr))
  have hids : ((runs ids).map expand).flatten = ids := hruns.flatMap_eq
  have hlists := Lists.intro htrim hparts
  rwa [hids] at hlists

end IdList

namespace Affinity

/-- **An ascending list of numbers of 32 bits can be printed, in one way, and is read back.** -/
theorem parse_printed {ids : List ℕ} (h : ids.Pairwise (· < ·))
    (hlt : ∀ n ∈ ids, n < UInt32.size) :
    (∃! text, IdList.Printed ids text) ∧
      ∀ text, IdList.Printed ids text → parseIdList text = .ok ids := by
  refine ⟨⟨IdList.write ids, (IdList.printed_iff h).2 rfl, fun text => (IdList.printed_iff h).1⟩,
    fun text htext => ?_⟩
  have hread := IdList.read?_eq_some_iff.2 (IdList.lists_write h hlt)
  rw [(IdList.printed_iff h).1 htext, parseIdList, hread]

/-- A run may be one number, and it may end at the largest one. -/
theorem parse_printed_runs :
    parseIdList "0-3,8,10-11,4294967294-4294967295\n" =
      .ok [0, 1, 2, 3, 8, 10, 11, 4294967294, 4294967295] := by
  have hids : List.Pairwise (· < ·) [0, 1, 2, 3, 8, 10, 11, 4294967294, 4294967295] := by decide
  refine (parse_printed hids (by decide)).2 _ ((IdList.printed_iff hids).2 ?_)
  decide

end Affinity
end Slab
