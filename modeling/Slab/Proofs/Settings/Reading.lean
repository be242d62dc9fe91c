import Mathlib.Data.List.Sort
import Slab.Proofs.Settings.Layers
import Slab.Settings.Decode

/-!
# Settings read one by one

A tree is read entry by entry, in the order of its keys and whatever keys it has. What comes of it
depends on twelve values only, one for each setting.

* `Setting`, `Setting.path`: the settings, and where each stands in a tree;
* `Settings.ofValues v`: the settings with the values `v`, each read by itself; of the values that
  cannot be read the first, in the order of sections and keys, is the one reported;
* `Settings.ofTree_eq`: **reading a tree is reading these values**, whatever other keys it has.
-/

namespace Slab

/-! ### The settings -/

/-- The settings, in the order of their sections and keys. -/
inductive Setting
  | arenaDomain
  | arenaHugePages
  | arenaLocality
  | arenaLock
  | arenaSize
  | poolCapacity
  | poolSlotSize
  | logLevel
  | metrics
  | workerCpus
  | workerIterations
  | workerThreads
  deriving DecidableEq, Repr

namespace Setting

/-- The name of the section. -/
def group : Setting → String
  | arenaDomain | arenaHugePages | arenaLocality | arenaLock | arenaSize => "arena"
  | poolCapacity | poolSlotSize => "pool"
  | logLevel | metrics => "telemetry"
  | workerCpus | workerIterations | workerThreads => "workers"

/-- The key in the section. -/
def key : Setting → String
  | arenaDomain => "domain"
  | arenaHugePages => "huge_pages"
  | arenaLocality => "locality"
  | arenaLock => "lock"
  | arenaSize => "size_bytes"
  | poolCapacity => "capacity"
  | poolSlotSize => "slot_size"
  | logLevel => "log_level"
  | metrics => "metrics"
  | workerCpus => "cpus"
  | workerIterations => "iterations"
  | workerThreads => "threads"

/-- All settings. -/
def every : List Setting :=
  [arenaDomain, arenaHugePages, arenaLocality, arenaLock, arenaSize, poolCapacity, poolSlotSize,
    logLevel, metrics, workerCpus, workerIterations, workerThreads]

/-- The settings of a section. -/
def members (g : String) : List Setting := every.filter fun x => x.group = g

theorem mem_every (x : Setting) : x ∈ every := by cases x <;> decide

/-- Where the setting stands in a tree. -/
def path (x : Setting) : List String := [x.group, x.key]

/-- The names of the sections. -/
def groups : List String := ["arena", "pool", "telemetry", "workers"]

theorem group_mem (x : Setting) : x.group ∈ groups := by cases x <;> decide

theorem group_prefix_path (x : Setting) : [x.group] <+: x.path := List.prefix_append _ [x.key]

/-- Every section has a setting. -/
theorem exists_group {g : String} (h : g ∈ groups) : ∃ x : Setting, x.group = g := by
  simp only [groups, List.mem_cons, List.not_mem_nil, or_false] at h
  rcases h with rfl | rfl | rfl | rfl
  · exact ⟨arenaSize, rfl⟩
  · exact ⟨poolCapacity, rfl⟩
  · exact ⟨metrics, rfl⟩
  · exact ⟨workerCpus, rfl⟩

/-- The setting as `f` reads its value; an error says where the value stands. -/
def read {α : Type} (v : Setting → Tree) (x : Setting) (f : Tree → Except Misfit α) :
    Except Misfit α :=
  (f (v x)).mapError fun m => (m.under x.key).under x.group

end Setting

namespace Settings

open Setting

/-- The settings of the reservation, each read by itself. -/
def arenaOfValues (v : Setting → Tree) : Except Misfit Settings.Arena := do
  let domain ← read v arenaDomain Tree.readDomain
  let hugePages ← read v arenaHugePages Tree.readBool
  let locality ← read v arenaLocality (Tree.readChoice "LocalityMode" localityWords)
  let lock ← read v arenaLock (Tree.readChoice "LockMode" lockWords)
  let sizeBytes ← read v arenaSize Tree.readSize
  return { sizeBytes, domain, hugePages, locality, lock }

/-- The settings of the pool, each read by itself. -/
def poolOfValues (v : Setting → Tree) : Except Misfit Settings.Pool := do
  let capacity ← read v poolCapacity Tree.readSize
  let slotSize ← read v poolSlotSize (Tree.readOption Tree.readSize)
  return { capacity, slotSize }

/-- The settings of the reports, each read by itself. -/
def telemetryOfValues (v : Setting → Tree) : Except Misfit Settings.Telemetry := do
  let logLevel ← read v logLevel Tree.readText
  let metrics ← read v metrics Tree.readBool
  return { logLevel, metrics }

/-- The settings of the workers, each read by itself. -/
def workersOfValues (v : Setting → Tree) : Except Misfit Settings.Workers := do
  let cpus ← read v workerCpus (Tree.readList Tree.readSize)
  let iterations ← read v workerIterations Tree.readCount
  let threads ← read v workerThreads Tree.readSize
  return { threads, cpus, iterations }

/-- The settings with given values, each read by itself. -/
def ofValues (v : Setting → Tree) : Except Misfit Settings := do
  let arena ← arenaOfValues v
  let pool ← poolOfValues v
  let telemetry ← telemetryOfValues v
  let workers ← workersOfValues v
  return { arena, pool, workers, telemetry }

end Settings

/-! ### Entries that are read -/

section Bind

variable {ε ε' ε'' α β γ : Type} (x : Except ε α)

theorem Except.bind_mapError (f : α → Except ε β) (g : ε → ε') :
    (x >>= f).mapError g = x.mapError g >>= fun a => (f a).mapError g := by
  cases x <;> rfl

theorem Except.map_mapError (f : α → β) (g : ε → ε') :
    (x.map f).mapError g = (x.mapError g).map f := by
  cases x <;> rfl

theorem Except.mapError_mapError (f : ε → ε') (g : ε' → ε'') :
    (x.mapError f).mapError g = x.mapError fun e => g (f e) := by
  cases x <;> rfl

theorem Except.map_bind (f : α → β) (g : β → Except ε γ) :
    x.map f >>= g = x >>= fun a => g (f a) := by
  cases x <;> rfl

end Bind

namespace Field

variable {σ : Type} {fields : List (Field σ)} {d l : Dict String Tree}

theorem readEntries_nil (s : σ) : readEntries fields s [] = .ok s := rfl

theorem readEntries_cons (s : σ) (e : String × Tree) (rest : List (String × Tree)) :
    readEntries fields s (e :: rest) =
      readEntry fields s e >>= fun s => readEntries fields s rest := by
  rw [readEntries]
  cases readEntry fields s e <;> rfl

/-- Keys that no field has are passed over. -/
theorem readEntries_filter {p : String → Bool} (hp : ∀ f ∈ fields, p f.key = true) (s : σ)
    (d : Dict String Tree) :
    readEntries fields s (d.filter fun e => p e.1) = readEntries fields s d := by
  induction d generalizing s with
  | nil => rfl
  | cons e d ih =>
    rw [List.filter_cons, readEntries_cons]
    split_ifs with he
    · rw [readEntries_cons]
      exact congrArg _ (funext fun s => ih s)
    · have hnone : fields.find? (fun f => f.key == e.1) = none := by
        refine List.find?_eq_none.2 fun f hf heq => he ?_
        rw [← eq_of_beq heq]
        exact hp f hf
      rw [ih, readEntry, hnone]
      rfl

/-- The entries of `d` that are in `l`, where `l` has its keys from `d`, are just those of `l`. -/
theorem filter_keys_eq (hd : d.keys.Pairwise (· < ·)) (hl : l.keys.Pairwise (· < ·))
    (hfind : ∀ e ∈ l, d.find? e.1 = some e.2) : d.filter (fun e => e.1 ∈ l.keys) = l := by
  have hnodup : d.keys.Nodup := List.Pairwise.imp (fun hlt => Std.ne_of_lt hlt) hd
  let r (a b : String × Tree) : Prop := a.1 < b.1
  have hirrefl : Std.Irrefl r := ⟨fun a => Std.lt_irrefl⟩
  have hasymm : Std.Antisymm r := ⟨fun a b h h' => absurd (Std.lt_trans h h') Std.lt_irrefl⟩
  refine List.Pairwise.eq_of_mem_iff (r := r) ((List.pairwise_map.1 hd).filter _)
    (List.pairwise_map.1 hl) fun e => ?_
  rw [List.mem_filter, decide_eq_true_iff]
  constructor
  · rintro ⟨he, hk⟩
    obtain ⟨e', he', hkey⟩ := List.mem_map.1 hk
    have hsame : some e'.2 = some e.2 := by
      rw [← hfind e' he', hkey]
      exact (Dict.find?_eq_some_iff hnodup).2 he
    have heq : e' = e := Prod.ext hkey (Option.some.inj hsame)
    exact heq ▸ he'
  · exact fun he => ⟨(Dict.find?_eq_some_iff hnodup).1 (hfind e he), List.mem_map.2 ⟨e, he, rfl⟩⟩

/-- Reading the entries of `d` is reading those that the fields know. -/
theorem readEntries_eq (hd : d.keys.Pairwise (· < ·)) (hl : l.keys.Pairwise (· < ·))
    (hfind : ∀ e ∈ l, d.find? e.1 = some e.2) (hkeys : ∀ f ∈ fields, f.key ∈ l.keys) (s : σ) :
    readEntries fields s d = readEntries fields s l := by
  rw [← readEntries_filter (p := fun k => k ∈ l.keys) (fun f hf => decide_eq_true (hkeys f hf)),
    filter_keys_eq hd hl hfind]

end Field

/-! ### Sections that are read -/

namespace Settings

/-- The values of the settings in a tree. -/
def values (t : Tree) (x : Setting) : Tree := (t.get? x.path).getD .null

/-- A section with given values of its settings and nothing else. -/
def sectionOf (v : Setting → Tree) (g : String) : Dict String Tree :=
  (Setting.members g).map fun x => (x.key, v x)

section Sections

variable (v : Setting → Tree)

theorem readEntries_arena :
    (Field.readEntries arenaFields {} (sectionOf v "arena")).mapError (Misfit.under "arena") =
      arenaOfValues v := by
  have he : sectionOf v "arena" =
      [("domain", v .arenaDomain), ("huge_pages", v .arenaHugePages),
        ("locality", v .arenaLocality), ("lock", v .arenaLock), ("size_bytes", v .arenaSize)] := rfl
  simp only [he, arenaFields, Field.readEntries_cons, Field.readEntries_nil, Field.readEntry,
    String.reduceBEq, Bool.false_eq_true, not_false_eq_true, List.find?_cons_of_neg, BEq.rfl,
    List.find?_cons_of_pos, Except.map_mapError, Except.map_bind, Except.bind_mapError,
    Except.mapError_mapError, arenaOfValues, Setting.read, bind_pure_comp]
  rfl

theorem readEntries_pool :
    (Field.readEntries poolFields {} (sectionOf v "pool")).mapError (Misfit.under "pool") =
      poolOfValues v := by
  have he : sectionOf v "pool" = [("capacity", v .poolCapacity), ("slot_size", v .poolSlotSize)] :=
    rfl
  simp only [he, poolFields, Field.readEntries_cons, Field.readEntries_nil, Field.readEntry,
    String.reduceBEq, Bool.false_eq_true, not_false_eq_true, List.find?_cons_of_neg, BEq.rfl,
    List.find?_cons_of_pos, Except.map_mapError, Except.map_bind, Except.bind_mapError,
    Except.mapError_mapError, poolOfValues, Setting.read, bind_pure_comp]
  rfl

theorem readEntries_telemetry :
    (Field.readEntries telemetryFields {} (sectionOf v "telemetry")).mapError
        (Misfit.under "telemetry") = telemetryOfValues v := by
  have he : sectionOf v "telemetry" = [("log_level", v .logLevel), ("metrics", v .metrics)] := rfl
  simp only [he, telemetryFields, Field.readEntries_cons, Field.readEntries_nil, Field.readEntry,
    String.reduceBEq, Bool.false_eq_true, not_false_eq_true, List.find?_cons_of_neg, BEq.rfl,
    List.find?_cons_of_pos, Except.map_mapError, Except.map_bind, Except.bind_mapError,
    Except.mapError_mapError, telemetryOfValues, Setting.read, bind_pure_comp]
  rfl

theorem readEntries_workers :
    (Field.readEntries workerFields {} (sectionOf v "workers")).mapError (Misfit.under "workers") =
      workersOfValues v := by
  have he : sectionOf v "workers" =
      [("cpus", v .workerCpus), ("iterations", v .workerIterations),
        ("threads", v .workerThreads)] := rfl
  simp only [he, workerFields, Field.readEntries_cons, Field.readEntries_nil, Field.readEntry,
    String.reduceBEq, Bool.false_eq_true, not_false_eq_true, List.find?_cons_of_neg, BEq.rfl,
    List.find?_cons_of_pos, Except.map_mapError, Except.map_bind, Except.bind_mapError,
    Except.mapError_mapError, workersOfValues, Setting.read, bind_pure_comp]
  rfl

end Sections

variable {t : Tree}

theorem get?_eq_values (hall : ∀ x : Setting, (t.get? x.path).isSome) (x : Setting) :
    t.get? x.path = some (values t x) := by
  obtain ⟨u, hu⟩ := Option.isSome_iff_exists.1 (hall x)
  rw [values, hu, Option.getD_some]

/-- A section that has a setting is a dictionary with the values of its settings. -/
theorem exists_section {d : Dict String Tree} (hsec : (Tree.map d).Sectioned Setting.groups)
    (hord : (Tree.map d).Ordered) (hall : ∀ x : Setting, ((Tree.map d).get? x.path).isSome)
    (g : String) (x₀ : Setting) (hg : x₀.group = g) :
    ∃ e : Dict String Tree, d.find? g = some (.map e) ∧ (Tree.map e).Ordered ∧
      ∀ x : Setting, x.group = g → e.find? x.key = some (values (.map d) x) := by
  have hget (x : Setting) (hx : x.group = g) :
      (d.find? g).bind (fun u => u.get? [x.key]) = some (values (.map d) x) := by
    rw [← get?_eq_values hall x, Setting.path, hx, Tree.get?_section_key, Tree.get?_key]
  cases hu : d.find? g with
  | none =>
    have h := hget x₀ hg
    rw [hu] at h
    cases h
  | some u =>
    obtain ⟨e, rfl⟩ := hsec.isSection g (hg ▸ x₀.group_mem) u (by rw [Tree.get?_key, hu])
    refine ⟨e, rfl, hord.find? hu, fun x hx => ?_⟩
    have h := hget x hx
    rwa [hu, Option.bind_some, Tree.get?_key] at h

/-- Reading a section is reading the values of its settings. -/
theorem readEntries_section {σ : Type} (fields : List (Field σ)) {e : Dict String Tree} {g : String}
    {v : Setting → Tree} (ho : (Tree.map e).Ordered)
    (hv : ∀ x : Setting, x.group = g → e.find? x.key = some (v x))
    (hkeys : ((Setting.members g).map Setting.key).Pairwise (· < ·))
    (hfields : ∀ f ∈ fields, f.key ∈ (Setting.members g).map Setting.key) (s : σ) :
    Field.readEntries fields s e = Field.readEntries fields s (sectionOf v g) := by
  have hks : (sectionOf v g).keys = (Setting.members g).map Setting.key := by
    simp [Dict.keys, sectionOf, Function.comp_def]
  refine Field.readEntries_eq ho.keys (hks ▸ hkeys) (fun p hp => ?_) (hks ▸ hfields) s
  obtain ⟨x, hx, rfl⟩ := List.mem_map.1 hp
  exact hv x (of_decide_eq_true (List.mem_filter.1 hx).2)

/-- **Reading a tree is reading the values of the settings**, whatever else is in the tree. -/
theorem ofTree_eq (hsec : t.Sectioned Setting.groups) (hord : t.Ordered)
    (hall : ∀ x : Setting, (t.get? x.path).isSome) : ofTree t = ofValues (values t) := by
  obtain ⟨d, rfl⟩ := hsec.isMap
  obtain ⟨a, ha, hao, hav⟩ := exists_section hsec hord hall "arena" .arenaDomain rfl
  obtain ⟨p, hp, hpo, hpv⟩ := exists_section hsec hord hall "pool" .poolCapacity rfl
  obtain ⟨r, hr, hro, hrv⟩ := exists_section hsec hord hall "telemetry" .logLevel rfl
  obtain ⟨w, hw, hwo, hwv⟩ := exists_section hsec hord hall "workers" .workerCpus rfl
  have harena := readEntries_section arenaFields hao hav (by decide) (by decide) {}
  have hpool := readEntries_section poolFields hpo hpv (by decide) (by decide) {}
  have htelemetry :=
    readEntries_section telemetryFields hro hrv (by decide) (by decide) {}
  have hworkers := readEntries_section workerFields hwo hwv (by decide) (by decide) {}
  let l : Dict String Tree :=
    [("arena", .map a), ("pool", .map p), ("telemetry", .map r), ("workers", .map w)]
  have hkeys : l.keys = Setting.groups := rfl
  have hroot : Field.readEntries sections {} d = Field.readEntries sections {} l := by
    have hasc : Setting.groups.Pairwise (· < ·) := by decide
    have hfields : ∀ f ∈ sections, f.key ∈ Setting.groups := by decide
    refine Field.readEntries_eq hord.keys (hkeys ▸ hasc) ?_ (hkeys ▸ hfields) {}
    simp only [l, List.forall_mem_cons]
    exact ⟨ha, hp, hr, hw, by simp⟩
  show Field.readEntries sections {} d = _
  rw [hroot]
  simp only [l, sections, Field.readSection, String.reduceAppend, Field.readEntries_cons,
    Field.readEntries_nil, Field.readEntry, BEq.rfl, List.find?_cons_of_pos, String.reduceBEq,
    Bool.false_eq_true, not_false_eq_true, List.find?_cons_of_neg, Except.map_mapError,
    Except.map_bind, harena, readEntries_arena, hpool, readEntries_pool, htelemetry,
    readEntries_telemetry, hworkers, readEntries_workers, ofValues, bind_pure_comp]
  rfl

end Settings
end Slab
