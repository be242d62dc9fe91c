import Mathlib.Data.List.Perm.Basic
import Slab.Dict

/-!
# Keys of dictionaries

Which keys a dictionary has, and that they stay in ascending order.

* `Dict.keys`, `Dict.Sorted`: the keys in the order of the entries, and that they ascend;
* `Dict.mapValues f`: the dictionary with `f` applied to what belongs to each key.

`perm_insert` and `perm_foldl` say which entries there are after an insertion and after many,
`keys_insert`, `keys_insert_of_mem` and `keys_erase` say what an operation does to the keys,
`ascending_insert` that keys of any kind go on to ascend, `insert_comm` that insertions at different
keys may come in any order, and `insert_eq_self` that inserting what is there already changes
nothing.
-/

namespace Slab.Dict

section Keys

variable {κ : Type} {α β : Type*}

/-- The keys, in the order of the entries. -/
def keys (d : Dict κ α) : List κ := d.map Prod.fst

@[simp] theorem keys_nil : keys ([] : Dict κ α) = [] := rfl

@[simp] theorem keys_cons (e : κ × α) (d : Dict κ α) : keys (e :: d) = e.1 :: keys d := rfl

/-- The dictionary with `f` applied to what belongs to each key. -/
def mapValues (f : α → β) (d : Dict κ α) : Dict κ β := d.map fun e => (e.1, f e.2)

theorem keys_mapValues (f : α → β) (d : Dict κ α) : (d.mapValues f).keys = d.keys := by
  simp [keys, mapValues, Function.comp_def]

/-- Steps that each add entries under new keys add all of them. -/
theorem perm_foldl {β : Type*} {step : Dict κ α → β → Dict κ α} {entries : β → Dict κ α}
    (hstep : ∀ d b, (∀ k ∈ (entries b).keys, k ∉ d.keys) → (step d b).Perm (entries b ++ d))
    (l : List β) {d : Dict κ α} (h : (keys (l.flatMap entries ++ d)).Nodup) :
    (l.foldl step d).Perm (l.flatMap entries ++ d) := by
  induction l generalizing d with
  | nil => exact List.Perm.refl _
  | cons b l ih =>
    rw [List.flatMap_cons, List.append_assoc] at h
    have hnew : ∀ k ∈ (entries b).keys, k ∉ d.keys := by
      intro k hk hd
      rw [keys, List.map_append] at h
      refine (List.nodup_append.1 h).2.2 k hk k ?_ rfl
      rw [List.map_append]
      exact List.mem_append_right _ hd
    have hperm := hstep d b hnew
    -- the new entries stand in front of the later ones, and are added before them
    have hmiddle : (l.flatMap entries ++ (entries b ++ d)).Perm
        (entries b ++ (l.flatMap entries ++ d)) := by
      rw [← List.append_assoc, ← List.append_assoc]
      exact List.perm_append_comm.append_right d
    have htail := (hperm.append_left (l.flatMap entries)).trans hmiddle
    rw [List.flatMap_cons, List.append_assoc]
    exact (ih ((htail.map Prod.fst).nodup_iff.2 h)).trans htail

variable [DecidableEq κ]

theorem find?_mapValues (f : α → β) (d : Dict κ α) (x : κ) :
    (d.mapValues f).find? x = (d.find? x).map f := by
  induction d with
  | nil => rfl
  | cons e d ih =>
    show (if x = e.1 then some (f e.2) else find? (mapValues f d) x) =
      Option.map f (find? (e :: d) x)
    rw [ih, find?]
    split <;> rfl

theorem erase_mapValues (f : α → β) (d : Dict κ α) (x : κ) :
    (d.mapValues f).erase x = (d.erase x).mapValues f := by
  simp only [erase, mapValues, List.filter_map]
  rfl

theorem find?_eq_none_iff {d : Dict κ α} {x : κ} : d.find? x = none ↔ x ∉ d.keys := by
  induction d with
  | nil => simp [find?]
  | cons e d ih =>
    rw [find?, keys_cons, List.mem_cons, not_or, ← ih]
    split
    · rename_i h
      simp [h]
    · rename_i h
      simp [h]

theorem mem_keys_of_find? {d : Dict κ α} {x : κ} {a : α} (h : d.find? x = some a) :
    x ∈ d.keys := by
  by_contra hn
  rw [find?_eq_none_iff.2 hn] at h
  cases h

theorem keys_erase (d : Dict κ α) (x : κ) : (d.erase x).keys = d.keys.filter (· ≠ x) := by
  simp only [keys, erase, List.filter_map]
  rfl

variable [LT κ] [DecidableLT κ]

theorem insert_mapValues (f : α → β) (d : Dict κ α) (x : κ) (a : α) :
    (d.mapValues f).insert x (f a) = (d.insert x a).mapValues f := by
  induction d with
  | nil => rfl
  | cons e d ih =>
    obtain ⟨k, b⟩ := e
    show insert ((k, f b) :: mapValues f d) x (f a) = mapValues f (insert ((k, b) :: d) x a)
    rw [insert, insert, ih]
    split_ifs <;> rfl

/-- A new entry joins the others. -/
theorem perm_insert {d : Dict κ α} {x : κ} (hx : x ∉ d.keys) (a : α) :
    (d.insert x a).Perm ((x, a) :: d) := by
  induction d with
  | nil => exact List.Perm.refl _
  | cons e d ih =>
    obtain ⟨k, b⟩ := e
    rw [keys_cons, List.mem_cons, not_or] at hx
    rw [insert, if_neg hx.1]
    split_ifs
    · exact List.Perm.refl _
    · exact ((ih hx.2).cons (k, b)).trans (List.Perm.swap (x, a) (k, b) _)

/-- A new key joins the others. -/
theorem keys_insert {d : Dict κ α} {x : κ} (hx : x ∉ d.keys) (a : α) :
    (d.insert x a).keys.Perm (x :: d.keys) :=
  (perm_insert hx a).map Prod.fst

theorem mem_keys_insert {d : Dict κ α} {x y : κ} {a : α} :
    y ∈ (d.insert x a).keys ↔ y = x ∨ y ∈ d.keys := by
  have h := find?_insert d x a y
  by_cases hy : y = x
  · rw [if_pos hy] at h
    exact ⟨fun _ => Or.inl hy, fun _ => mem_keys_of_find? h⟩
  · rw [if_neg hy] at h
    rw [← not_iff_not, not_or, ← find?_eq_none_iff, ← find?_eq_none_iff, h]
    exact ⟨fun hn => ⟨hy, hn⟩, And.right⟩

end Keys

section Ascending

variable {κ : Type} {α : Type*} [DecidableEq κ]

/-- With no key twice, a look-up finds just the entries. -/
theorem find?_eq_some_iff {d : Dict κ α} (h : d.keys.Nodup) {x : κ} {a : α} :
    d.find? x = some a ↔ (x, a) ∈ d := by
  induction d with
  | nil => simp [find?]
  | cons e d ih =>
    obtain ⟨k, b⟩ := e
    rw [keys_cons, List.nodup_cons] at h
    rw [find?, List.mem_cons, Prod.mk.injEq]
    by_cases hx : x = k
    · subst hx
      have hnot : (x, a) ∉ d := fun hm => h.1 (List.mem_map.2 ⟨_, hm, rfl⟩)
      simp [hnot, eq_comm]
    · simp [hx, ih h.2]

variable [LT κ] [DecidableLT κ]

/-- Every entry after an insertion is the new one or was there before. -/
theorem mem_insert {d : Dict κ α} {x : κ} {a : α} {e : κ × α} (h : e ∈ d.insert x a) :
    e = (x, a) ∨ e ∈ d := by
  induction d with
  | nil => exact Or.inl (List.mem_singleton.1 h)
  | cons e' d ih =>
    obtain ⟨k, b⟩ := e'
    rw [insert] at h
    split_ifs at h
    · rcases List.mem_cons.1 h with h | h
      · exact Or.inl h
      · exact Or.inr (List.mem_cons_of_mem _ h)
    · exact List.mem_cons.1 h
    · rcases List.mem_cons.1 h with rfl | h
      · exact Or.inr List.mem_cons_self
      · exact (ih h).imp_right (List.mem_cons_of_mem _)

/-- Keys that ascend still do after an insertion. -/
theorem ascending_insert [Trans (fun a b : κ => a < b) (fun a b : κ => a < b) fun a b : κ => a < b]
    [Std.Trichotomous fun a b : κ => a < b] {d : Dict κ α} (h : d.keys.Pairwise (· < ·)) (x : κ)
    (a : α) : (d.insert x a).keys.Pairwise (· < ·) := by
  induction d with
  | nil => exact List.pairwise_singleton _ _
  | cons e d ih =>
    obtain ⟨k, b⟩ := e
    obtain ⟨hk, hd⟩ := List.pairwise_cons.1 h
    rw [insert]
    split_ifs with h1 h2
    · subst h1
      exact List.pairwise_cons.2 ⟨hk, hd⟩
    · refine List.pairwise_cons.2 ⟨fun y hy => ?_, h⟩
      rcases List.mem_cons.1 hy with rfl | hy
      · exact h2
      · exact Std.lt_trans h2 (hk y hy)
    · refine List.pairwise_cons.2 ⟨fun y hy => ?_, ih hd⟩
      rcases mem_keys_insert.1 hy with rfl | hy
      · rcases Std.lt_trichotomy y k with h | h | h
        · exact absurd h h2
        · exact absurd h h1
        · exact h
      · exact hk y hy

/-- Of two insertions at one key the later one counts. -/
theorem insert_insert (d : Dict κ α) (x : κ) (a b : α) :
    (d.insert x a).insert x b = d.insert x b := by
  induction d with
  | nil => simp only [insert, if_pos]
  | cons e d ih =>
    obtain ⟨k, c⟩ := e
    rw [insert, insert]
    split_ifs with h1 h2
    · rw [insert, if_pos rfl]
    · rw [insert, if_pos rfl]
    · rw [insert, if_neg h1, if_neg h2, ih]

section Comm

variable [Trans (fun a b : κ => a < b) (fun a b : κ => a < b) fun a b : κ => a < b]
  [Std.Asymm fun a b : κ => a < b] [Std.Trichotomous fun a b : κ => a < b] {x y : κ}

theorem insert_comm_of_lt (h : x < y) (d : Dict κ α) (a b : α) :
    (d.insert x a).insert y b = (d.insert y b).insert x a := by
  have hne : x ≠ y := Std.ne_of_lt h
  have hnot : ¬ y < x := Std.not_gt_of_lt h
  induction d with
  | nil => simp only [insert, if_neg hne.symm, if_neg hne, if_neg hnot, if_pos h]
  | cons e d ih =>
    obtain ⟨k, c⟩ := e
    rcases Std.lt_trichotomy x k with hx | rfl | hx
    · -- the new first key stays the first
      have hxk : x ≠ k := Std.ne_of_lt hx
      rw [insert, if_neg hxk, if_pos hx, insert, if_neg hne.symm, if_neg hnot, insert]
      split_ifs
      · rw [insert, if_neg hne, if_pos h]
      · rw [insert, if_neg hne, if_pos h]
      · rw [insert, if_neg hxk, if_pos hx]
    · simp only [insert, if_neg hne.symm, if_neg hnot, if_pos]
    · have hy : k < y := Std.lt_trans hx h
      simp only [insert, if_neg (Std.ne_of_lt hx).symm, if_neg (Std.not_gt_of_lt hx),
        if_neg (Std.ne_of_lt hy).symm, if_neg (Std.not_gt_of_lt hy), ih]

/-- Insertions at different keys may come in any order. -/
theorem insert_comm (h : x ≠ y) (d : Dict κ α) (a b : α) :
    (d.insert x a).insert y b = (d.insert y b).insert x a := by
  rcases Std.lt_trichotomy x y with hlt | heq | hlt
  · exact insert_comm_of_lt hlt d a b
  · exact absurd heq h
  · exact (insert_comm_of_lt hlt d b a).symm

end Comm

end Ascending

/-! ### Order -/

section Order

variable {α : Type*} {d : Dict ℕ α} {x : ℕ} {a : α}

/-- The keys ascend. -/
def Sorted (d : Dict ℕ α) : Prop := d.keys.Pairwise (· < ·)

theorem Sorted.nodup (h : d.Sorted) : d.keys.Nodup := List.Pairwise.imp (fun h => Nat.ne_of_lt h) h

theorem Sorted.erase (h : d.Sorted) (x : ℕ) : (Dict.erase d x).Sorted := by
  unfold Sorted
  rw [keys_erase]
  exact List.Pairwise.filter _ h

theorem Sorted.insert (h : d.Sorted) (x : ℕ) (a : α) : (Dict.insert d x a).Sorted :=
  ascending_insert h x a

/-- Replacing what belongs to a key leaves the keys alone. -/
theorem keys_insert_of_mem (h : d.Sorted) (hx : x ∈ d.keys) (a : α) :
    (d.insert x a).keys = d.keys := by
  induction d with
  | nil => cases hx
  | cons e d ih =>
    obtain ⟨k, b⟩ := e
    obtain ⟨hk, hd⟩ := List.pairwise_cons.1 h
    rw [insert]
    split_ifs with h1 h2
    · rw [h1]
      rfl
    · rcases List.mem_cons.1 hx with rfl | hx
      · exact absurd rfl h1
      · exact absurd (hk x hx) (Nat.lt_asymm h2)
    · rcases List.mem_cons.1 hx with rfl | hx
      · exact absurd rfl h1
      · rw [keys_cons, ih hd hx]
        rfl

/-- Inserting what is there already changes nothing. -/
theorem insert_eq_self (h : d.Sorted) (hx : d.find? x = some a) : d.insert x a = d := by
  induction d with
  | nil => cases hx
  | cons e d ih =>
    obtain ⟨k, b⟩ := e
    obtain ⟨hk, hd⟩ := List.pairwise_cons.1 h
    rw [find?] at hx
    rw [insert]
    split_ifs at hx ⊢ with h1 h2
    · cases hx
      rw [h1]
    · exact absurd (hk x (mem_keys_of_find? hx)) (Nat.lt_asymm h2)
    · rw [ih hd hx]

/-- Erasing a key takes it from the keys. -/
theorem keys_perm_erase (h : d.Sorted) (hx : x ∈ d.keys) :
    d.keys.Perm (x :: (d.erase x).keys) := by
  have he : (d.erase x).keys = d.keys.erase x := by
    rw [keys_erase, h.nodup.erase_eq_filter]
    exact List.filter_congr fun y _ => by by_cases hy : y = x <;> simp [hy]
  rw [he]
  exact List.perm_cons_erase hx

end Order
end Slab.Dict
