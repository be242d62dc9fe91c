import Mathlib.Data.List.TakeWhile
import Mathlib.Tactic.Common
import Slab.Proofs.Numeral
import Slab.Proofs.Text
import Slab.Settings.VariableValue

/-!
# What variables say, spelled out

Numbers, words and lists of numbers, written as texts, are read back from variables.

* `VariableValue.IsWord.value?_eq`: a value that is a word of letters and digits, with blanks before
  it;
* `VariableValue.read_decimal`, `read_letters`, `read_list`: **a number, a word of letters, and a
  list of numbers in brackets are read back**.
-/

namespace Slab

/-! ### Words -/

namespace VariableValue

section Alphanumeric

variable {c d : Char}

theorem ne_of_isAlphanum (hc : c.isAlphanum = true) (hd : d.isAlphanum = false) : c ≠ d := by
  rintro rfl
  rw [hc] at hd
  cases hd

theorem isSpace_of_isAlphanum (hc : c.isAlphanum = true) : isSpace c = false := by
  simp only [isSpace, Bool.or_eq_false_iff, beq_eq_false_iff_ne]
  exact ⟨⟨⟨⟨ne_of_isAlphanum hc rfl, ne_of_isAlphanum hc rfl⟩, ne_of_isAlphanum hc rfl⟩,
    ne_of_isAlphanum hc rfl⟩, ne_of_isAlphanum hc rfl⟩

theorem isSeparator_of_isAlphanum (hc : c.isAlphanum = true) : isSeparator c = false := by
  simp only [isSeparator, Bool.or_eq_false_iff, beq_eq_false_iff_ne]
  exact ⟨⟨⟨⟨ne_of_isAlphanum hc rfl, ne_of_isAlphanum hc rfl⟩, ne_of_isAlphanum hc rfl⟩,
    ne_of_isAlphanum hc rfl⟩, ne_of_isAlphanum hc rfl⟩

theorem isDigit_of_isAlpha (h : c.isAlpha = true) : c.isDigit = false := by
  rw [Bool.eq_false_iff, ne_eq, Text.isDigit_iff_toNat]
  rw [Text.isAlpha_iff_toNat] at h
  omega

/-- Letter case does not make a letter of anything else. -/
theorem isAlpha_of_toLower (h : c.toLower.isAlpha = true) : c.isAlpha = true := by
  unfold Char.toLower at h
  split at h
  · rename_i hc
    exact Text.isAlpha_iff_toNat.2 (.inl hc)
  · exact h

end Alphanumeric

/-- A text of letters and digits, at least one. -/
structure IsWord (l : List Char) : Prop where
  ne_nil : l ≠ []
  isAlphanum : ∀ c ∈ l, c.isAlphanum = true

variable {blanks l rest : List Char}

theorem isWord_decimal (n : ℕ) : IsWord (Numeral.decimal n).toList where
  ne_nil := Numeral.toList_decimal_ne_nil n
  isAlphanum c hc := by
    rw [Char.isAlphanum, Numeral.isDigit_of_mem_decimal hc, Bool.or_true]

theorem isWord_of_isAlpha (hne : l ≠ []) (h : ∀ c ∈ l, c.isAlpha = true) : IsWord l where
  ne_nil := hne
  isAlphanum c hc := by
    rw [Char.isAlphanum, h c hc, Bool.true_or]

theorem IsWord.trim_eq (h : IsWord l) : Text.trim l = l :=
  Text.trim_eq_self fun c hc => Text.isBlank_of_isAlphanum (h.isAlphanum c hc)

/-- A bare text that is a word has no point in it. -/
theorem IsWord.bare_eq (h : IsWord l) :
    bare l =
      match Numeral.unsigned? UInt64.size l with
      | some n => .natural n
      | none =>
        match Numeral.signed? l with
        | some i => .signed i
        | none => .text (String.ofList l) := by
  have hpoint : l.contains '.' = false := by
    rw [List.contains_eq_mem, decide_eq_false_iff_not]
    exact fun hc => ne_of_isAlphanum (h.isAlphanum _ hc) rfl rfl
  unfold bare
  dsimp only
  rw [h.trim_eq, hpoint]
  rfl

/-- A number of 64 bits that stands bare. -/
theorem bare_decimal {n : ℕ} (h : n < UInt64.size) :
    bare (Numeral.decimal n).toList = .natural n := by
  rw [(isWord_decimal n).bare_eq, Numeral.unsigned?_decimal h]

/-- A word of letters that stands bare. -/
theorem bare_letters (hne : l ≠ []) (hletters : ∀ c ∈ l, c.isAlpha = true) :
    bare l = .text (String.ofList l) := by
  have hword := isWord_of_isAlpha hne hletters
  obtain ⟨c, s, rfl⟩ := List.exists_cons_of_ne_nil hne
  have hc := List.mem_cons_self (a := c) (l := s)
  have hnat : Numeral.natural? (c :: s) = none := by
    rw [Numeral.natural?, List.all_cons, Numeral.isDigit_eq, isDigit_of_isAlpha (hletters c hc),
      Bool.false_and,
      Bool.and_false]
    rfl
  have hplus : c ≠ '+' := ne_of_isAlphanum (hword.isAlphanum c hc) rfl
  have hminus : c ≠ '-' := ne_of_isAlphanum (hword.isAlphanum c hc) rfl
  have hdrop : Numeral.dropPlus (c :: s) = c :: s := by
    unfold Numeral.dropPlus
    split
    · rename_i hs
      exact absurd (List.cons.inj hs).1 hplus
    · rfl
  have hunsigned : Numeral.unsigned? UInt64.size (c :: s) = none := by
    rw [Numeral.unsigned?, hdrop, hnat]
    rfl
  have hsigned : Numeral.signed? (c :: s) = none := by
    unfold Numeral.signed?
    split
    · rename_i hs
      exact absurd (List.cons.inj hs).1 hminus
    · rw [hdrop, hnat]
      rfl
  rw [hword.bare_eq, hunsigned, hsigned]

theorem isSpace_of_isSeparator {c : Char} (h : isSeparator c = true) : isSpace c = false := by
  simp only [isSeparator, Bool.or_eq_true, beq_iff_eq] at h
  rcases h with (((rfl | rfl) | rfl) | rfl) | rfl <;> rfl

theorem append_of_dropStart? {p r : List Char} (h : dropStart? p l = some r) : l = p ++ r := by
  induction p generalizing l with
  | nil => exact Option.some.inj h
  | cons c p ih =>
    cases l with
    | nil => cases h
    | cons d s =>
      rw [dropStart?] at h
      split_ifs at h with hc
      rw [ih h, hc]
      rfl

theorem dropStart?_of_ne {c d : Char} (h : c ≠ d) (p s : List Char) :
    dropStart? (c :: p) (d :: s) = none :=
  if_neg h

/-- The rest of a text after a word: nothing, or what begins with a separator. -/
def EndsWord (rest : List Char) : Prop := ∀ c ∈ rest.head?, isSeparator c = true

/-- A word ends at the rest after it. -/
theorem IsWord.bareValue?_eq (hl : IsWord l) (hrest : EndsWord rest)
    (htrue : dropStart? "true".toList (l ++ rest) = none)
    (hfalse : dropStart? "false".toList (l ++ rest) = none) (fuel : ℕ) :
    bareValue? (fuel + 1) (l ++ rest) = some (bare l, rest) := by
  have hplain : ∀ c ∈ l, (!isSeparator c) = true := fun c hc => by
    rw [isSeparator_of_isAlphanum (hl.isAlphanum c hc)]
    rfl
  have htake : (l ++ rest).takeWhile (fun c => !isSeparator c) = l := by
    rw [List.takeWhile_append_of_pos hplain]
    cases rest with
    | nil => rw [List.takeWhile_nil, List.append_nil]
    | cons d rest => rw [List.takeWhile_cons_of_neg (by simp [hrest d rfl]), List.append_nil]
  have hdrop : (l ++ rest).dropWhile (fun c => !isSeparator c) = rest := by
    rw [List.dropWhile_append_of_pos hplain]
    cases rest with
    | nil => rfl
    | cons d rest => rw [List.dropWhile_cons_of_neg (by simp [hrest d rfl])]
  obtain ⟨c, s, rfl⟩ := List.exists_cons_of_ne_nil hl.ne_nil
  have hc (d : Char) (hd : d.isAlphanum = false) : c ≠ d :=
    ne_of_isAlphanum (hl.isAlphanum c List.mem_cons_self) hd
  unfold bareValue?
  rw [htrue, hfalse]
  dsimp only
  split
  case h_6 => rw [htake, hdrop]
  all_goals
    rename_i h
    exact absurd (List.cons.inj h).1 (hc _ rfl)

/-- A value that is a word, with blanks before it. -/
theorem IsWord.value?_eq (hl : IsWord l) (hblanks : ∀ c ∈ blanks, isSpace c = true)
    (hrest : EndsWord rest) (htrue : dropStart? "true".toList (l ++ rest) = none)
    (hfalse : dropStart? "false".toList (l ++ rest) = none) (fuel : ℕ) :
    value? (fuel + 2) (blanks ++ (l ++ rest)) = some (bare l, rest) := by
  have hstart : skipSpace (blanks ++ (l ++ rest)) = l ++ rest := by
    obtain ⟨c, s, rfl⟩ := List.exists_cons_of_ne_nil hl.ne_nil
    have hc : isSpace c = false := isSpace_of_isAlphanum (hl.isAlphanum c List.mem_cons_self)
    rw [skipSpace, List.dropWhile_append_of_pos hblanks]
    exact List.dropWhile_cons_of_neg (by rw [hc]; exact Bool.false_ne_true)
  have hend : skipSpace rest = rest := by
    cases rest with
    | nil => rfl
    | cons d rest =>
      exact List.dropWhile_cons_of_neg (by rw [isSpace_of_isSeparator (hrest d rfl)]; simp)
  rw [value?, hstart, hl.bareValue?_eq hrest htrue hfalse, Option.map_some, hend]

theorem dropStart?_decimal {c : Char} (hc : c.isDigit = false) (p : List Char) (n : ℕ)
    (rest : List Char) : dropStart? (c :: p) ((Numeral.decimal n).toList ++ rest) = none := by
  obtain ⟨d, s, hd⟩ := List.exists_cons_of_ne_nil (Numeral.toList_decimal_ne_nil n)
  have hdigit : d.isDigit = true :=
    Numeral.isDigit_of_mem_decimal (n := n) (by rw [hd]; exact List.mem_cons_self)
  rw [hd, List.cons_append]
  refine dropStart?_of_ne (fun h => ?_) _ _
  rw [h, hdigit] at hc
  cases hc

/-- A value that is a number, with blanks before it. -/
theorem value?_decimal {n : ℕ} (hn : n < UInt64.size) (hblanks : ∀ c ∈ blanks, isSpace c = true)
    (hrest : EndsWord rest) (fuel : ℕ) :
    value? (fuel + 2) (blanks ++ ((Numeral.decimal n).toList ++ rest)) =
      some (.natural n, rest) := by
  rw [(isWord_decimal n).value?_eq hblanks hrest (dropStart?_decimal rfl _ n rest)
    (dropStart?_decimal rfl _ n rest), bare_decimal hn]

/-! ### Whole texts -/

/-- A variable that is a word, if it does not begin like a truth value. -/
theorem read_word {s : String} (hs : IsWord s.toList)
    (htrue : dropStart? "true".toList s.toList = none)
    (hfalse : dropStart? "false".toList s.toList = none) : read s = bare s.toList := by
  have hnil : EndsWord [] := fun c hc => by cases hc
  rw [← List.append_nil s.toList] at htrue hfalse
  have hvalue := hs.value?_eq (List.forall_mem_nil _) hnil htrue hfalse (4 * s.toList.length + 2)
  rw [List.nil_append, List.append_nil] at hvalue
  rw [read, hvalue]

/-- **A variable that is a number.** -/
theorem read_decimal {n : ℕ} (h : n < UInt64.size) : read (Numeral.decimal n) = .natural n := by
  have hstart {c : Char} (hc : c.isDigit = false) (p : List Char) :
      dropStart? (c :: p) (Numeral.decimal n).toList = none := by
    rw [← List.append_nil (Numeral.decimal n).toList]
    exact dropStart?_decimal hc p n []
  rw [read_word (isWord_decimal n) (hstart rfl _) (hstart rfl _), bare_decimal h]

/-- **A variable that is a word of letters.** -/
theorem read_letters {s : String} (hne : s.toList ≠ [])
    (hletters : ∀ c ∈ s.toList, c.isAlpha = true)
    (htrue : dropStart? "true".toList s.toList = none)
    (hfalse : dropStart? "false".toList s.toList = none) : read s = .text s := by
  rw [read_word (isWord_of_isAlpha hne hletters) htrue hfalse, bare_letters hne hletters,
    String.ofList_toList]

/-! ### Lists -/

/-- The numbers with commas and blanks between them. -/
def listed (gap : List Char) (l : List ℕ) : List Char :=
  List.intercalate (',' :: gap) (l.map fun n => (Numeral.decimal n).toList)

section Listed

variable {gap : List Char} {fuel : ℕ} {t : Tree}

theorem listed_singleton (gap : List Char) (n : ℕ) :
    listed gap [n] = (Numeral.decimal n).toList := by
  simp [listed]

theorem listed_cons_cons (gap : List Char) (n m : ℕ) (l : List ℕ) :
    listed gap (n :: m :: l) =
      (Numeral.decimal n).toList ++ ',' :: (gap ++ listed gap (m :: l)) := by
  simp [listed, List.intercalate]

theorem length_le_length_listed (gap : List Char) (l : List ℕ) :
    l.length ≤ (listed gap l).length := by
  have hpos (n : ℕ) : 0 < (Numeral.decimal n).toList.length :=
    List.length_pos_iff.2 (Numeral.toList_decimal_ne_nil n)
  induction l with
  | nil => exact Nat.zero_le _
  | cons n l ih =>
    cases l with
    | nil =>
      rw [listed_singleton]
      exact hpos n
    | cons m l =>
      have hn := hpos n
      simp only [listed_cons_cons, List.length_append, List.length_cons] at ih ⊢
      omega

/-- An item before a comma. -/
theorem items?_comma {s : List Char} (hs : s.head? ≠ some ']')
    (hv : value? fuel s = some (t, ',' :: rest)) :
    items? (fuel + 1) s = (items? fuel rest).map fun p => (t :: p.1, p.2) := by
  rw [items?, hv]
  · rfl
  · rintro rest rfl
    exact hs rfl

/-- The last item. -/
theorem items?_last {s : List Char} (hs : s.head? ≠ some ']')
    (hv : value? fuel s = some (t, ']' :: rest)) : items? (fuel + 1) s = some ([t], rest) := by
  rw [items?, hv]
  · rfl
  · rintro rest rfl
    exact hs rfl

/-- A number with blanks before it is not the end of a list. -/
theorem head?_ne_close (hblanks : ∀ c ∈ blanks, isSpace c = true) (n : ℕ) (rest : List Char) :
    (blanks ++ ((Numeral.decimal n).toList ++ rest)).head? ≠ some ']' := by
  intro h
  cases blanks with
  | nil =>
    obtain ⟨d, s, hd⟩ := List.exists_cons_of_ne_nil (Numeral.toList_decimal_ne_nil n)
    rw [hd] at h
    cases h
    have hdigit := Numeral.isDigit_of_mem_decimal (n := n) (by rw [hd]; exact List.mem_cons_self)
    cases hdigit
  | cons c blanks =>
    cases h
    cases hblanks _ List.mem_cons_self

/-- The items of a list of numbers, with blanks before the first. -/
theorem items?_listed (hgap : ∀ c ∈ gap, isSpace c = true) (rest : List Char) {n : ℕ}
    {l : List ℕ} (hbound : ∀ m ∈ n :: l, m < UInt64.size)
    (hblanks : ∀ c ∈ blanks, isSpace c = true) (hfuel : l.length + 3 ≤ fuel) :
    items? fuel (blanks ++ (listed gap (n :: l) ++ ']' :: rest)) =
      some ((n :: l).map .natural, rest) := by
  have hn : n < UInt64.size := hbound n List.mem_cons_self
  obtain ⟨fuel, rfl⟩ : ∃ k, fuel = k + 3 := Nat.exists_eq_add_of_le' (by omega)
  induction l generalizing n blanks fuel with
  | nil =>
    rw [listed_singleton]
    refine items?_last (head?_ne_close hblanks n _) (value?_decimal hn hblanks ?_ fuel)
    simp [EndsWord, isSeparator]
  | cons m l ih =>
    have hm : m < UInt64.size := hbound m (List.mem_cons_of_mem _ List.mem_cons_self)
    rw [List.length_cons] at hfuel
    obtain ⟨fuel, rfl⟩ : ∃ k, fuel = k + 1 := Nat.exists_eq_add_of_le' (by omega)
    have hitems := ih (fun k hk => hbound k (List.mem_cons_of_mem _ hk)) hgap hm fuel (by omega)
    rw [listed_cons_cons, List.append_assoc, List.cons_append, List.append_assoc,
      items?_comma (head?_ne_close hblanks n _) (value?_decimal hn hblanks ?_ (fuel + 1)), hitems]
    · rfl
    · simp [EndsWord, isSeparator]

/-- **A variable that is a list of numbers in brackets.** -/
theorem read_list (hgap : ∀ c ∈ gap, isSpace c = true) {l : List ℕ}
    (hbound : ∀ n ∈ l, n < UInt64.size) :
    read (String.ofList ('[' :: (listed gap l ++ [']']))) = .list (l.map .natural) := by
  -- Every item takes one unit of depth, and a text is longer than its items are many.
  have hlength := length_le_length_listed gap l
  obtain ⟨fuel, hfuel⟩ : ∃ k, 4 * ('[' :: (listed gap l ++ [']'])).length + 4 = k + 2 := ⟨_, rfl⟩
  have hitems : items? fuel (listed gap l ++ [']']) = some (l.map .natural, []) := by
    rw [List.length_cons, List.length_append, List.length_singleton] at hfuel
    cases l with
    | nil =>
      obtain ⟨fuel, rfl⟩ : ∃ k, fuel = k + 1 := Nat.exists_eq_add_of_le' (by omega)
      show items? (fuel + 1) [']'] = _
      rw [items?]
      rfl
    | cons n l =>
      rw [List.length_cons] at hlength
      exact items?_listed hgap [] hbound (List.forall_mem_nil _) (by omega)
  have htrue : dropStart? "true".toList ('[' :: (listed gap l ++ [']'])) = none :=
    dropStart?_of_ne (by decide) _ _
  have hfalse : dropStart? "false".toList ('[' :: (listed gap l ++ [']'])) = none :=
    dropStart?_of_ne (by decide) _ _
  have hbare : bareValue? (fuel + 1) ('[' :: (listed gap l ++ [']'])) =
      some (.list (l.map .natural), []) := by
    unfold bareValue?
    rw [htrue, hfalse]
    show (items? fuel (listed gap l ++ [']'])).map (fun p => (Tree.list p.1, p.2)) = _
    rw [hitems]
    rfl
  have hstart : skipSpace ('[' :: (listed gap l ++ [']'])) = '[' :: (listed gap l ++ [']']) :=
    List.dropWhile_cons_of_neg (by decide)
  rw [read, String.toList_ofList, hfuel, value?, hstart, hbare]
  rfl

end Listed
end VariableValue
end Slab
