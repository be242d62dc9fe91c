import Mathlib.Data.List.Pairwise
import Slab.Proofs.Settings.Order
import Slab.Proofs.Text
import Slab.Settings.Load

/-!
# The order in which variables are listed

An environment lists its variables in an order that nobody chooses. Each variable lays a value over
what the ones before it say, so the order could matter; it does not, unless the path of one variable
leads to or through that of another.

* `Tree.Apart p q`: neither path leads to or through the other;
* `Tree.merge_nest_comm`: values at paths that are apart are laid over a tree in any order;
* `Variables.cut`, `Variables.path?_of_plain`: the path of a name without points and blanks;
* `Variables.Scattered environment`: the paths of any two variables are apart;
* `Variables.tree_perm`, `Settings.deployment_perm`: what scattered variables say, and the
  deployment that they name;
* `Settings.load_perm`: **the order of scattered variables does not matter.**
-/

namespace Slab

/-! ### Values at paths -/

namespace Tree

/-- Neither path leads to or through the other. -/
def Apart (p q : List String) : Prop := ¬ p <+: q ∧ ¬ q <+: p

instance (p q : List String) : Decidable (Apart p q) := inferInstanceAs (Decidable (_ ∧ _))

theorem Apart.symm {p q : List String} (h : Apart p q) : Apart q p := ⟨h.2, h.1⟩

theorem apart_cons_iff {k : String} {p q : List String} :
    Apart (k :: p) (k :: q) ↔ Apart p q := by
  simp only [Apart, List.cons_prefix_cons, true_and]

/-- Paths that are apart lead somewhere. -/
theorem Apart.exists_cons {p q : List String} (h : Apart p q) : ∃ k p', p = k :: p' := by
  cases p with
  | nil => exact absurd List.nil_prefix h.1
  | cons k p' => exact ⟨k, p', rfl⟩

/-- The entries of a dictionary. -/
def entries : Tree → Dict String Tree
  | map d => d
  | _ => []

theorem entries_map (d : Dict String Tree) : (map d).entries = d := rfl

/-- What a value at a path does to a tree that it is laid over. -/
theorem merge_nest_cons (t : Tree) (k : String) (p : List String) (v : Tree) :
    t.merge (nest (k :: p) v) =
      map (t.entries.insert k (upon (t.entries.find? k) (nest p v))) := by
  rw [nest_cons]
  rcases t.map_or_ne_map with ⟨d, rfl⟩ | ht
  · rw [merge_map_map, mergeEntries, mergeEntries, mergeEntry_eq]
    rfl
  · have hnone : t.entries = [] := by
      cases t <;> first | rfl | exact absurd rfl (ht _)
    rw [merge_of_base_ne_map ht, hnone]
    rfl

theorem upon_some (b t : Tree) : upon (some b) t = b.merge t := rfl

/-- A dictionary without entries makes room for values, and changes none. -/
theorem merge_nil_comm {p : List String} (hp : p ≠ []) (t v : Tree) :
    (t.merge (map [])).merge (nest p v) = (t.merge (nest p v)).merge (map []) := by
  obtain ⟨k, p, rfl⟩ := List.exists_cons_of_ne_nil hp
  have hnil : (t.merge (map [])).entries = t.entries := by
    cases t <;> rfl
  rw [merge_nest_cons, merge_nest_cons, hnil]
  rfl

/-- A dictionary laid over what there may be is laid over a dictionary. -/
theorem upon_nest_cons (b : Option Tree) (k : String) (p : List String) (v : Tree) :
    upon b (nest (k :: p) v) = (b.getD (map [])).merge (nest (k :: p) v) := by
  cases b with
  | none => rfl
  | some b => rfl

/-- **Values at paths that are apart are laid over a tree in any order.** -/
theorem merge_nest_comm {p q : List String} (h : Apart p q) (t u v : Tree) :
    (t.merge (nest p u)).merge (nest q v) = (t.merge (nest q v)).merge (nest p u) := by
  induction p generalizing q t with
  | nil => exact absurd List.nil_prefix h.1
  | cons k p ih =>
    obtain ⟨j, q, rfl⟩ := h.symm.exists_cons
    simp only [merge_nest_cons, entries_map, Dict.find?_insert]
    by_cases hkj : j = k
    · subst hkj
      have hpq := apart_cons_iff.1 h
      obtain ⟨i, p', rfl⟩ := hpq.exists_cons
      obtain ⟨i', q', rfl⟩ := hpq.symm.exists_cons
      rw [if_pos rfl, if_pos rfl, Dict.insert_insert, Dict.insert_insert, upon_some, upon_some,
        upon_nest_cons, upon_nest_cons, ih hpq]
    · rw [if_neg hkj, if_neg (Ne.symm hkj), Dict.insert_comm (Ne.symm hkj)]

end Tree

/-! ### Paths of names -/

/-- Letter case changes letters only, and into letters. -/
theorem Text.toLower_eq_or (c : Char) : c.toLower = c ∨ c.toLower.isAlphanum = true := by
  unfold Char.toLower
  split
  · rename_i h
    have hlow : 65 ≤ c.val.toNat := h.1
    have hhigh : c.val.toNat ≤ 90 := h.2
    have hsum : (c.val + 32).toNat = c.val.toNat + 32 := by
      rw [UInt32.toNat_add]
      exact Nat.mod_eq_of_lt (Nat.lt_of_le_of_lt (Nat.add_le_add_right hhigh 32) (by decide))
    refine .inr ?_
    rw [Char.isAlphanum, Bool.or_eq_true, isAlpha_iff_toNat]
    refine .inl (.inr ?_)
    show 97 ≤ (c.val + 32).toNat ∧ (c.val + 32).toNat ≤ 122
    omega
  · exact .inl rfl

namespace Variables

/-- The parts between double underscores. -/
def cut : List Char → List (List Char)
  | '_' :: '_' :: s => [] :: cut s
  | c :: s => (cut s).modifyHead (c :: ·)
  | [] => [[]]

/-- Points in place of double underscores cut a text that has no other points. -/
theorem pieces_pointed {s : List Char} (h : '.' ∉ s) : Text.pieces '.' (pointed s) = cut s := by
  rw [Text.pieces_eq_splitOn]
  induction s using pointed.induct with
  | case1 s ih =>
    rw [List.mem_cons, not_or, List.mem_cons, not_or] at h
    rw [pointed, cut, List.splitOn_cons_eq_if_modifyHead, if_pos (beq_self_eq_true _), ih h.2.2]
  | case2 c s hc ih =>
    rw [List.mem_cons, not_or] at h
    rw [pointed, cut, List.splitOn_cons_eq_if_modifyHead, if_neg (by simpa using Ne.symm h.1),
      ih h.2]
    · exact hc
    · exact hc
  | case3 => rfl

/-- The character is neither a point nor a blank. -/
def Plain (c : Char) : Prop := c ≠ '.' ∧ Text.isBlank c = false

theorem Plain.toLower {c : Char} (h : Plain c) : Plain c.toLower := by
  rcases Text.toLower_eq_or c with hc | hc
  · rwa [hc]
  · refine ⟨fun hpoint => ?_, Text.isBlank_of_isAlphanum hc⟩
    rw [hpoint] at hc
    cases hc

theorem isBlank_pointed {s : List Char} (h : ∀ c ∈ s, Plain c) :
    ∀ c ∈ pointed s, Text.isBlank c = false := by
  induction s using pointed.induct with
  | case1 s ih =>
    rw [List.forall_mem_cons, List.forall_mem_cons] at h
    rw [pointed, List.forall_mem_cons]
    exact ⟨rfl, ih h.2.2⟩
  | case2 c s hc ih =>
    rw [List.forall_mem_cons] at h
    rw [pointed, List.forall_mem_cons]
    · exact ⟨h.1.2, ih h.2⟩
    · exact hc
  | case3 => exact List.forall_mem_nil _

theorem dropStart?_append (p s : List Char) : VariableValue.dropStart? p (p ++ s) = some s := by
  induction p with
  | nil => rfl
  | cons c p ih => rw [List.cons_append, VariableValue.dropStart?, if_pos rfl, ih]

/-- **The path of a name without points and blanks**: what follows the first eight characters, in
small letters, cut at double underscores. -/
theorem path?_of_plain {first rest : List Char} (hplain : ∀ c ∈ first ++ rest, Plain c)
    (hstart : first.map Char.toLower = start) :
    path? (String.ofList (first ++ rest)) =
      if (cut (rest.map Char.toLower)).any List.isEmpty then none
      else some ((cut (rest.map Char.toLower)).map String.ofList) := by
  have hrest : ∀ c ∈ rest.map Char.toLower, Plain c := by
    intro c hc
    obtain ⟨d, hd, rfl⟩ := List.mem_map.1 hc
    exact (hplain d (List.mem_append_right _ hd)).toLower
  have hkeys : Text.pieces '.' (Text.trim (pointed (rest.map Char.toLower))) =
      cut (rest.map Char.toLower) := by
    rw [Text.trim_eq_self (isBlank_pointed hrest)]
    exact pieces_pointed fun h => (hrest _ h).1 rfl
  rw [path?, String.toList_ofList, Text.trim_eq_self fun c hc => (hplain c hc).2, List.map_append,
    hstart, dropStart?_append]
  dsimp only
  rw [hkeys]

/-! ### Variables in any order -/

/-- The paths of any two variables are apart. A variable without a path says nothing. -/
def Scattered (environment : List (String × String)) : Prop :=
  environment.Pairwise fun v v' =>
    ∀ p ∈ path? v.1, ∀ q ∈ path? v'.1, Tree.Apart p q

instance (environment : List (String × String)) : Decidable (Scattered environment) :=
  inferInstanceAs (Decidable (environment.Pairwise _))

variable {environment environment' : List (String × String)}

theorem path?_ne_nil {name : String} {path : List String} (h : path? name = some path) :
    path ≠ [] := by
  unfold path? at h
  split at h
  · cases h
  · dsimp only at h
    split_ifs at h
    cases h
    exact fun hnil => Text.pieces_ne_nil _ _ (List.map_eq_nil_iff.1 hnil)

/-- What two variables say is laid over a tree in any order if their paths are apart. -/
theorem merge_layer_comm {v v' : String × String}
    (h : ∀ p ∈ path? v.1, ∀ q ∈ path? v'.1, Tree.Apart p q) (t : Tree) :
    (t.merge (layer v)).merge (layer v') = (t.merge (layer v')).merge (layer v) := by
  unfold layer
  cases hp : path? v.1 with
  | none =>
    cases hq : path? v'.1 with
    | none => rfl
    | some q => exact Tree.merge_nil_comm (path?_ne_nil hq) t _
  | some p =>
    cases hq : path? v'.1 with
    | none => exact (Tree.merge_nil_comm (path?_ne_nil hp) t _).symm
    | some q => exact Tree.merge_nest_comm (h p hp q hq) t _ _

/-- What scattered variables say does not depend on their order. -/
theorem tree_perm (hperm : environment.Perm environment') (hapart : Scattered environment) :
    tree environment = tree environment' := by
  have hsymm : Std.Symm fun v v' : String × String => ∀ t : Tree,
      (t.merge (layer v)).merge (layer v') = (t.merge (layer v')).merge (layer v) :=
    ⟨fun _ _ h t => (h t).symm⟩
  have hcomm := (List.Pairwise.imp merge_layer_comm hapart).forall_of_forall fun _ _ _ => rfl
  exact hperm.foldl_eq' (fun v hv v' hv' t => hcomm hv hv' t) _

/-- Of variables whose paths are not apart the later one has its way. -/
example :
    let capacity l := ((tree l).get? ["pool", "capacity"]).map Tree.readSize
    capacity [("HOTPOOL_POOL", "{capacity=1}"), ("HOTPOOL_POOL__CAPACITY", "2")] = some (.ok 2) ∧
    capacity [("HOTPOOL_POOL__CAPACITY", "2"), ("HOTPOOL_POOL", "{capacity=1}")] =
      some (.ok 1) := by decide +kernel

end Variables

namespace Settings

variable {environment environment' : List (String × String)}

/-- The deployment that scattered variables name does not depend on their order: at most one of
them names it. -/
theorem deployment_perm (hperm : environment.Perm environment')
    (hapart : Variables.Scattered environment) :
    deployment environment = deployment environment' := by
  have hnamed : environment.filter (fun v => v.1 == deploymentVariable) =
      environment'.filter fun v => v.1 == deploymentVariable := by
    have hp := hperm.filter fun v => v.1 == deploymentVariable
    have hpair := List.Pairwise.filter (fun v => v.1 == deploymentVariable) hapart
    rcases hl : environment.filter (fun v => v.1 == deploymentVariable) with _ | ⟨v, _ | ⟨v', l⟩⟩
    · rw [hl] at hp ⊢
      exact (List.nil_perm.1 hp).symm
    · rw [hl] at hp ⊢
      exact List.singleton_perm.1 hp
    · have hname : ∀ u ∈ v :: v' :: l, Variables.path? u.1 = some ["env"] := by
        intro u hu
        rw [← hl] at hu
        rw [beq_iff_eq.1 (List.mem_filter.1 hu).2]
        decide +kernel
      rw [hl] at hpair
      have hfar := List.rel_of_pairwise_cons hpair List.mem_cons_self ["env"]
        (hname v List.mem_cons_self) ["env"] (hname v' (List.mem_cons_of_mem _ List.mem_cons_self))
      exact absurd (List.prefix_refl _) hfar.1
  rw [deployment, deployment, ← List.head?_filter, hnamed, List.head?_filter]

/-- **The order in which scattered variables are listed does not matter**: loading gives the same
settings, or the same errors, with the usual files and with any named one. -/
theorem load_perm {w : World} (hperm : environment.Perm w.environment)
    (hapart : Variables.Scattered environment) :
    load { w with environment } = load w ∧
      ∀ path, loadFile { w with environment } path = loadFile w path := by
  have htree := Variables.tree_perm hperm hapart
  constructor
  · simp only [load, usualFiles, usualPaths, deployment_perm hperm hapart, htree]
  · intro path
    simp only [loadFile, htree]

/-- A world with two files, and with variables of different depth. -/
def mingled : World where
  files := (FileTree.directory
    [ ("config", .directory
        [ ("hotpool.yaml", .file "{arena: {size_bytes: 8192, domain: 2}, workers: {threads: 2}}"),
          ("staging.yaml", .file "pool: {capacity: 5, slot_size: 192}") ]) ]).files
  environment :=
    [ ("HOTPOOL_POOL__CAPACITY", "8"), ("PATH", "/bin"), ("HOTPOOL_ENV", "staging"),
      ("HOTPOOL_WORKERS", "{cpus=[0], iterations=9}"), ("hotpool_arena__domain", "3") ]
  host := Host.reference

theorem load_perm_mingled :
    mingled.environment.reverse.Perm mingled.environment ∧
    Variables.Scattered mingled.environment.reverse ∧
    load { mingled with environment := mingled.environment.reverse } = .ok
      { arena := { sizeBytes := 8192, domain := 3 }
        pool := { capacity := 8, slotSize := some 192 }
        workers := { threads := 2, cpus := [0], iterations := 9 } } ∧
    loadFile { mingled with environment := mingled.environment.reverse } "config/staging.yaml" =
      loadFile mingled "config/staging.yaml" := by
  have hperm := mingled.environment.reverse_perm
  have hapart : Variables.Scattered mingled.environment.reverse := by decide +kernel
  obtain ⟨husual, hnamed⟩ := load_perm hperm hapart
  refine ⟨hperm, hapart, ?_, hnamed _⟩
  rw [husual]
  decide +kernel

end Settings
end Slab
