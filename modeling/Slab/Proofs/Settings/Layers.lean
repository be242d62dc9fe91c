import Mathlib.Data.List.Induction
import Slab.Proofs.Dict
import Slab.Settings.Tree

/-!
# Trees laid over one another

What stands at a path after layers have been laid over one another, told from the layers alone.

* `Tree.Ordered`: the keys of every dictionary in a tree ascend;
* `Tree.Sectioned names t`: `t` is a dictionary and has dictionaries at the keys `names`, so far as
  it has these keys;
* `Tree.settled path`: what layers, the highest first, have to say about a path. The highest layer
  that says anything about it has its way; only a dictionary is laid over what the lower layers say.

`ordered_merge` and `Sectioned.merge` carry the two properties from layer to layer, `get?_merge`
says what one layer does to a setting of a section, and `get?_foldl` what all of them do.
-/

namespace Slab.Tree

variable {base upper t : Tree} {names : List String} {s k : String}

/-- Whether a tree is a dictionary. -/
def isMap : Tree → Bool
  | map _ => true
  | _ => false

theorem isMap_iff : t.isMap = true ↔ ∃ d, t = .map d := by
  cases t <;> simp [isMap]

theorem ne_map_of_isMap (h : t.isMap = false) : ∀ d, t ≠ .map d := by
  rintro d rfl
  cases h

theorem map_or_ne_map (t : Tree) : (∃ d, t = .map d) ∨ ∀ d, t ≠ .map d := by
  cases t <;> simp

/-- A tree laid over one that there may be. -/
def upon : Option Tree → Tree → Tree
  | none, t => t
  | some b, t => b.merge t

/-- What there may be, laid over what there may be. -/
def lay (b : Option Tree) : Option Tree → Option Tree
  | none => b
  | some t => some (upon b t)

@[simp] theorem lay_none (b : Option Tree) : lay b none = b := rfl

@[simp] theorem none_lay (t : Option Tree) : lay none t = t := by cases t <;> rfl

/-! ### One layer over another -/

/-- What is no dictionary replaces what it is laid over. -/
theorem merge_of_ne_map (h : ∀ d, upper ≠ .map d) (base : Tree) : base.merge upper = upper := by
  cases upper <;> first | rfl | exact absurd rfl (h _)

/-- So does a dictionary that is laid over anything else. -/
theorem merge_of_base_ne_map (h : ∀ d, base ≠ .map d) (upper : Tree) :
    base.merge upper = upper := by
  cases upper <;> cases base <;> first | rfl | exact absurd rfl (h _)

theorem merge_map_map (d e : Dict String Tree) :
    (map d).merge (map e) = map (mergeEntries d e) := rfl

theorem upon_of_ne_map (h : ∀ d, upper ≠ .map d) (b : Option Tree) : upon b upper = upper := by
  cases b with
  | none => rfl
  | some b => exact merge_of_ne_map h b

theorem mergeEntry_eq (d : Dict String Tree) (k : String) (t : Tree) :
    mergeEntry d (k, t) = d.insert k (upon (d.find? k) t) := by
  rw [mergeEntry]
  cases d.find? k <;> rfl

/-- A key has what the upper dictionary says laid over what the lower one says. -/
theorem find?_mergeEntries {d e : Dict String Tree} (he : e.keys.Nodup) (x : String) :
    (mergeEntries d e).find? x = lay (d.find? x) (e.find? x) := by
  induction e generalizing d with
  | nil => rfl
  | cons p e ih =>
    obtain ⟨k, t⟩ := p
    rw [Dict.keys_cons, List.nodup_cons] at he
    rw [mergeEntries, ih he.2, mergeEntry_eq, Dict.find?_insert, Dict.find?]
    split_ifs with hx
    · subst hx
      rw [Dict.find?_eq_none_iff.2 he.1]
      rfl
    · rfl

/-! ### Order -/

/-- The keys of every dictionary ascend. -/
inductive Ordered : Tree → Prop
  | leaf {t : Tree} (h : ∀ d, t ≠ .map d) : Ordered t
  | dict {d : Dict String Tree} (hkeys : d.keys.Pairwise (· < ·)) (hd : ∀ e ∈ d, Ordered e.2) :
      Ordered (.map d)

theorem ordered_leaf (h : t.isMap = false) : t.Ordered := .leaf (ne_map_of_isMap h)

theorem ordered_nil : (map []).Ordered :=
  .dict List.Pairwise.nil fun _ h => absurd h List.not_mem_nil

theorem Ordered.keys {d : Dict String Tree} (h : (map d).Ordered) : d.keys.Pairwise (· < ·) := by
  cases h with
  | leaf h => exact absurd rfl (h d)
  | dict hkeys _ => exact hkeys

theorem Ordered.mem {d : Dict String Tree} (h : (map d).Ordered) : ∀ e ∈ d, e.2.Ordered := by
  cases h with
  | leaf h => exact absurd rfl (h d)
  | dict _ hd => exact hd

theorem Ordered.nodup {d : Dict String Tree} (h : (map d).Ordered) : d.keys.Nodup :=
  List.Pairwise.imp (fun hlt => Std.ne_of_lt hlt) h.keys

theorem Ordered.find? {d : Dict String Tree} (h : (map d).Ordered) (hx : d.find? k = some t) :
    t.Ordered :=
  h.mem _ ((Dict.find?_eq_some_iff h.nodup).1 hx)

theorem Ordered.insert {d : Dict String Tree} (h : (map d).Ordered) (ht : t.Ordered)
    (k : String) : (map (Dict.insert d k t)).Ordered := by
  refine .dict (Dict.ascending_insert h.keys k t) fun e he => ?_
  rcases Dict.mem_insert he with rfl | he
  · exact ht
  · exact h.mem e he

/-- Ordered trees laid over one another are ordered. -/
theorem ordered_merge (hb : base.Ordered) (hu : upper.Ordered) : (base.merge upper).Ordered := by
  induction hu generalizing base with
  | leaf h =>
    rw [merge_of_ne_map h]
    exact .leaf h
  | @dict e hkeys he ih =>
    rcases base.map_or_ne_map with ⟨d, rfl⟩ | hbase
    · rw [merge_map_map]
      clear hkeys
      -- The entries of `e` go into the dictionary one by one.
      induction e generalizing d with
      | nil => exact hb
      | cons p e ihe =>
        obtain ⟨k, t⟩ := p
        have ht : (upon (Dict.find? d k) t).Ordered := by
          cases hk : Dict.find? d k with
          | none => exact he _ List.mem_cons_self
          | some u => exact ih _ List.mem_cons_self (hb.find? hk)
        rw [mergeEntries, mergeEntry_eq]
        exact ihe (fun q hq => he q (List.mem_cons_of_mem _ hq))
          (fun q hq => ih q (List.mem_cons_of_mem _ hq)) _ (hb.insert ht k)
    · rw [merge_of_base_ne_map hbase]
      exact .dict hkeys he

/-! ### Sections -/

theorem get?_key (d : Dict String Tree) (k : String) : (map d).get? [k] = d.find? k := by
  rw [get?]
  cases d.find? k <;> simp [get?]

theorem nest_cons (k : String) (path : List String) (t : Tree) :
    nest (k :: path) t = map [(k, nest path t)] := rfl

theorem get?_singleton (k : String) (t : Tree) (x : String) :
    (map [(k, t)]).get? [x] = if x = k then some t else none := by
  rw [get?_key, Dict.find?, Dict.find?]

theorem get?_section_key (t : Tree) (s k : String) :
    t.get? [s, k] = (t.get? [s]).bind fun u => u.get? [k] := by
  cases t with
  | map d => rw [get?_key, get?]
  | _ => rfl

/-- The tree is a dictionary, and so is what it has at one of the names. -/
structure Sectioned (names : List String) (t : Tree) : Prop where
  isMap : ∃ d, t = .map d
  isSection : ∀ s ∈ names, ∀ u, t.get? [s] = some u → ∃ e, u = .map e

theorem sectioned_iff : t.Sectioned names ↔
    t.isMap = true ∧ ∀ s ∈ names, (t.get? [s]).all isMap = true := by
  constructor
  · rintro ⟨hm, hs⟩
    refine ⟨isMap_iff.2 hm, fun s hn => ?_⟩
    cases hu : t.get? [s] with
    | none => rfl
    | some u => exact isMap_iff.2 (hs s hn u hu)
  · rintro ⟨hm, hs⟩
    refine ⟨isMap_iff.1 hm, fun s hn u hu => isMap_iff.1 ?_⟩
    have h := hs s hn
    rwa [hu] at h

instance : Decidable (t.Sectioned names) := decidable_of_iff _ sectioned_iff.symm

theorem sectioned_nil : (map []).Sectioned names :=
  ⟨⟨[], rfl⟩, fun s _ u h => by cases h⟩

/-- A value below a section leaves the section a dictionary. -/
theorem sectioned_nest_cons_cons (s k : String) (path : List String) (t : Tree) :
    (nest (s :: k :: path) t).Sectioned names := by
  rw [nest_cons, nest_cons]
  refine ⟨⟨_, rfl⟩, fun x _ u h => ?_⟩
  rw [get?_singleton] at h
  split_ifs at h
  cases h
  exact ⟨_, rfl⟩

/-- So does a value at another name. -/
theorem sectioned_nest_singleton (hs : s ∉ names) (t : Tree) : (nest [s] t).Sectioned names := by
  rw [nest_cons]
  refine ⟨⟨_, rfl⟩, fun x hx u h => ?_⟩
  have hne : x ≠ s := fun he => hs (he ▸ hx)
  rw [get?_singleton, if_neg hne] at h
  cases h

theorem get?_merge_key {d e : Dict String Tree} (he : e.keys.Nodup) (k : String) :
    ((map d).merge (map e)).get? [k] = lay ((map d).get? [k]) ((map e).get? [k]) := by
  rw [merge_map_map, get?_key, get?_key, get?_key, find?_mergeEntries he]

theorem get?_upon_key (b : Option Tree) {f : Dict String Tree} (hf : f.keys.Nodup) (k : String) :
    (upon b (map f)).get? [k] = lay (b.bind fun u => u.get? [k]) (f.find? k) := by
  rw [← get?_key f]
  cases b with
  | none => rw [Option.bind_none, none_lay, upon]
  | some b =>
    rw [Option.bind_some, upon]
    rcases b.map_or_ne_map with ⟨c, rfl⟩ | hb
    · exact get?_merge_key hf k
    · have hnone : b.get? [k] = none := by
        cases b <;> first | rfl | exact absurd rfl (hb _)
      rw [merge_of_base_ne_map hb, hnone, none_lay]

/-- What a dictionary does to a setting of a section that it is laid over. -/
theorem get?_merge_map (base : Tree) {e : Dict String Tree} (ho : (map e).Ordered)
    (s k : String) :
    (base.merge (map e)).get? [s, k] =
      match (map e).get? [s] with
      | none => base.get? [s, k]
      | some (.map f) => lay (base.get? [s, k]) (Dict.find? f k)
      | some _ => none := by
  have hsection : (base.merge (map e)).get? [s] = lay (base.get? [s]) ((map e).get? [s]) := by
    rw [← upon, get?_upon_key _ ho.nodup, Option.bind_some, get?_key]
  rw [get?_section_key, hsection, get?_section_key base]
  cases hue : (map e).get? [s] with
  | none => rfl
  | some u =>
    rcases u.map_or_ne_map with ⟨f, rfl⟩ | hu
    · have hf : (map f).Ordered := ho.find? (by rwa [get?_key] at hue)
      rw [lay, Option.bind_some, get?_upon_key _ hf.nodup]
    · rw [lay, upon_of_ne_map hu, Option.bind_some]
      cases u <;> first | rfl | exact absurd rfl (hu _)

theorem Sectioned.merge (hb : base.Sectioned names) (hu : upper.Sectioned names)
    (ho : upper.Ordered) : (base.merge upper).Sectioned names := by
  obtain ⟨d, rfl⟩ := hb.isMap
  obtain ⟨e, rfl⟩ := hu.isMap
  refine ⟨⟨_, merge_map_map d e⟩, fun s hs u h => ?_⟩
  rw [get?_merge_key ho.nodup] at h
  cases hue : (map e).get? [s] with
  | none => exact hb.isSection s hs u (by rwa [hue, lay_none] at h)
  | some v =>
    obtain ⟨f, rfl⟩ := hu.isSection s hs v hue
    rw [hue] at h
    cases hbd : (map d).get? [s] with
    | none => exact ⟨f, Option.some.inj (by rw [← h, hbd]; rfl)⟩
    | some b =>
      obtain ⟨c, rfl⟩ := hb.isSection s hs b hbd
      exact ⟨_, Option.some.inj (by rw [← h, hbd]; rfl)⟩

/-- What a layer does to a setting of a section. -/
theorem get?_merge (base : Tree) (hu : upper.Sectioned names) (ho : upper.Ordered)
    (hs : s ∈ names) (k : String) :
    (base.merge upper).get? [s, k] = lay (base.get? [s, k]) (upper.get? [s, k]) := by
  obtain ⟨e, rfl⟩ := hu.isMap
  rw [get?_merge_map base ho, get?_section_key (map e)]
  cases hue : (map e).get? [s] with
  | none => rfl
  | some u =>
    obtain ⟨f, rfl⟩ := hu.isSection s hs u hue
    rw [Option.bind_some, get?_key]

/-! ### All layers -/

/-- What layers, the highest first, have to say about a path. -/
def settled (path : List String) : List Tree → Option Tree
  | [] => none
  | t :: below =>
    match t.get? path with
    | none => settled path below
    | some (.map d) => some (upon (settled path below) (.map d))
    | some u => some u

theorem settled_cons (path : List String) (t : Tree) (below : List Tree) :
    settled path (t :: below) = lay (settled path below) (t.get? path) := by
  rw [settled]
  split
  · rename_i h
    rw [h, lay_none]
  · rename_i d h
    rw [h, lay]
  · rename_i u hu h
    rw [h, lay, upon_of_ne_map hu]

section Fold

variable {layers : List Tree}

theorem settled_append_isSome {path : List String} (below : List Tree)
    (h : (settled path below).isSome) (above : List Tree) :
    (settled path (above ++ below)).isSome := by
  induction above with
  | nil => exact h
  | cons t above ih =>
    rw [List.cons_append, settled_cons]
    cases t.get? path with
    | none => exact ih
    | some u => rfl

/-- A lowest layer that says nothing about a path does not matter to it. -/
theorem settled_append_singleton {path : List String} (h : t.get? path = none) :
    settled path (layers ++ [t]) = settled path layers := by
  induction layers with
  | nil => rw [List.nil_append, settled_cons, h, lay_none]
  | cons u layers ih => rw [List.cons_append, settled_cons, settled_cons, ih]

theorem settled_eq_none {path : List String} (h : ∀ t ∈ layers, t.get? path = none) :
    settled path layers = none := by
  induction layers with
  | nil => rfl
  | cons t layers ih =>
    rw [settled_cons, h t List.mem_cons_self, lay_none]
    exact ih fun u hu => h u (List.mem_cons_of_mem _ hu)

/-- Layers that say one and the same about a path settle it. -/
theorem settled_eq_some {path : List String} {v : Tree} (hv : ∀ d, v ≠ .map d)
    (h : ∀ t ∈ layers, t.get? path = none ∨ t.get? path = some v)
    (hex : ∃ t ∈ layers, t.get? path = some v) : settled path layers = some v := by
  induction layers with
  | nil => obtain ⟨t, ht, -⟩ := hex; cases ht
  | cons t layers ih =>
    rw [settled_cons]
    rcases h t List.mem_cons_self with ht | ht
    · obtain ⟨u, hu, hsome⟩ := hex
      have hmem : u ∈ layers := (List.mem_cons.1 hu).resolve_left fun he => by
        rw [he, ht] at hsome
        cases hsome
      rw [ht, lay_none]
      exact ih (fun u hu => h u (List.mem_cons_of_mem _ hu)) ⟨u, hmem, hsome⟩
    · rw [ht, lay, upon_of_ne_map hv]

theorem ordered_foldl (hb : base.Ordered) (ho : ∀ t ∈ layers, t.Ordered) :
    (layers.foldl Tree.merge base).Ordered := by
  induction layers generalizing base with
  | nil => exact hb
  | cons t layers ih =>
    exact ih (ordered_merge hb (ho t List.mem_cons_self))
      fun u hu => ho u (List.mem_cons_of_mem _ hu)

theorem Sectioned.foldl (hb : base.Sectioned names) (ht : ∀ t ∈ layers, t.Sectioned names)
    (ho : ∀ t ∈ layers, t.Ordered) : (layers.foldl Tree.merge base).Sectioned names := by
  induction layers generalizing base with
  | nil => exact hb
  | cons t layers ih =>
    exact ih (hb.merge (ht t List.mem_cons_self) (ho t List.mem_cons_self))
      (fun u hu => ht u (List.mem_cons_of_mem _ hu)) fun u hu => ho u (List.mem_cons_of_mem _ hu)

/-- **What stands at a setting of a section after all layers have been laid over one another.** -/
theorem get?_foldl (base : Tree) (ht : ∀ t ∈ layers, t.Sectioned names)
    (ho : ∀ t ∈ layers, t.Ordered) (hs : s ∈ names) (k : String) :
    (layers.foldl Tree.merge base).get? [s, k] = settled [s, k] (layers.reverse ++ [base]) := by
  induction layers using List.reverseRecOn with
  | nil => rw [List.reverse_nil, List.nil_append, settled_cons, settled, none_lay, List.foldl_nil]
  | append_singleton layers t ih =>
    have ht' : ∀ u ∈ layers, u.Sectioned names := fun u hu => ht u (List.mem_append_left _ hu)
    have ho' : ∀ u ∈ layers, u.Ordered := fun u hu => ho u (List.mem_append_left _ hu)
    have hmem : t ∈ layers ++ [t] := List.mem_append_right _ List.mem_cons_self
    rw [List.foldl_concat, List.reverse_append, List.reverse_singleton, List.singleton_append,
      List.cons_append, settled_cons, ← ih ht' ho']
    exact get?_merge _ (ht t hmem) (ho t hmem) hs k

end Fold

end Slab.Tree
