import Slab.Proofs.Settings.Order
import Slab.Proofs.Settings.Reading
import Slab.Settings.Load

/-!
# Which layer has its way

Every setting takes its value from the highest layer that says anything about it: the variables lie
over the file of the deployment, this one over the base file and that one over the defaults. What is
read in the end is told from the layers and the number of processors alone.

* `Variables.bears e`: whether a variable has to do with a setting;
* `Settings.valueIn s x`: the value that a setting has;
* `Settings.Says files path t`: what a path has for a layer, nothing or a file that says `t`;
* `Settings.valueOf layers`: the values that layers, the highest first, give to the settings;
* `Settings.outcome cpuCount v`: what loading comes to when the settings have the values `v`;
* `Settings.load_by_precedence`: **loading comes to just that**, with the usual files and with a
  named one, and of the variables only those matter that have to do with a setting.

A dictionary as the value of a setting is laid over a dictionary below it instead of replacing it.
Of the settings only the two policies can be given as dictionaries, and there the first key counts,
not the last layer: `load_contested`.
-/

namespace Slab

/-! ### Variables that have to do with a setting -/

namespace Variables

/-- Whether a variable has to do with a setting: its name stands for the setting, for a section
around it or for something in it. -/
def bears (entry : String × String) : Bool :=
  (path? entry.1).any fun path => Setting.every.any fun x => path <+: x.path ∨ x.path <+: path

variable {entry : String × String}

theorem bears_deploymentVariable (value : String) :
    bears (Settings.deploymentVariable, value) = false := by
  have hpath : path? Settings.deploymentVariable = some ["env"] := by decide +kernel
  rw [bears, hpath]
  decide

theorem layer_of_path? {name : String} {path : List String} (h : path? name = some path)
    (value : String) : layer (name, value) = Tree.nest path (VariableValue.read value) := by
  rw [layer, h]

/-- The path of what has nothing to do with a setting neither leads to it nor through it. -/
theorem far_of_bears {name value : String} {path : List String} (h : bears (name, value) = false)
    (hpath : path? name = some path) (x : Setting) : ¬ (path <+: x.path ∨ x.path <+: path) := by
  rw [bears, hpath, Option.any_some, List.any_eq_false] at h
  simpa using h x x.mem_every

/-- What has nothing to do with a setting leaves it as it is. -/
theorem get?_merge_layer (h : bears entry = false) (x : Setting) (t : Tree) :
    (t.merge (layer entry)).get? x.path = t.get? x.path := by
  obtain ⟨name, value⟩ := entry
  have hord := ordered_layer (name, value)
  rw [Setting.path]
  cases hpath : path? name with
  | none =>
    rw [layer, hpath, Tree.get?_merge_map t Tree.ordered_nil]
    rfl
  | some path =>
    have hfar := far_of_bears h hpath x
    rw [layer_of_path? hpath] at hord ⊢
    rcases path with _ | ⟨g, _ | ⟨k, rest⟩⟩
    · exact absurd (.inl List.nil_prefix) hfar
    · have hg : x.group ≠ g := fun hg => hfar (.inl (hg ▸ x.group_prefix_path))
      rw [Tree.nest_cons] at hord ⊢
      rw [Tree.get?_merge_map t hord, Tree.get?_singleton, if_neg hg]
    · rw [Tree.nest_cons, Tree.nest_cons] at hord ⊢
      rw [Tree.get?_merge_map t hord, Tree.get?_singleton]
      by_cases hg : x.group = g
      · have hk : x.key ≠ k := fun hk => hfar (.inr (by rw [← hg, ← hk]; exact ⟨rest, rfl⟩))
        rw [if_pos hg]
        dsimp only
        rw [← Tree.get?_key, Tree.get?_singleton, if_neg hk, Tree.lay_none]
      · rw [if_neg hg]

/-- What has nothing to do with a setting leaves the sections dictionaries. -/
theorem sectioned_layer (h : bears entry = false) : (layer entry).Sectioned Setting.groups := by
  obtain ⟨name, value⟩ := entry
  cases hpath : path? name with
  | none =>
    rw [layer, hpath]
    exact Tree.sectioned_nil
  | some path =>
    have hfar := far_of_bears h hpath
    rw [layer_of_path? hpath]
    rcases path with _ | ⟨g, _ | ⟨k, rest⟩⟩
    · exact absurd (.inl List.nil_prefix) (hfar .arenaSize)
    · refine Tree.sectioned_nest_singleton (fun hg => ?_) _
      obtain ⟨x, rfl⟩ := Setting.exists_group hg
      exact hfar x (.inl x.group_prefix_path)
    · exact Tree.sectioned_nest_cons_cons g k rest _

/-- What a layer makes of a setting depends on what was said about that setting only. -/
theorem get?_merge_congr {t u : Tree} (x : Setting) (h : t.get? x.path = u.get? x.path)
    (e : String × String) :
    (t.merge (layer e)).get? x.path = (u.merge (layer e)).get? x.path := by
  have hord := ordered_layer e
  rcases (layer e).map_or_ne_map with ⟨d, hd⟩ | hmap
  · rw [hd] at hord ⊢
    rw [Setting.path] at h ⊢
    rw [Tree.get?_merge_map t hord, Tree.get?_merge_map u hord, h]
  · rw [Tree.merge_of_ne_map hmap, Tree.merge_of_ne_map hmap]

/-- **Of the variables only those matter that have to do with a setting.** -/
theorem get?_tree_filter (environment : List (String × String)) (x : Setting) :
    (tree (environment.filter bears)).get? x.path = (tree environment).get? x.path := by
  -- The two runs agree about the setting after every variable.
  have hrun (l : List (String × String)) (t u : Tree) (h : t.get? x.path = u.get? x.path) :
      ((l.filter bears).foldl (fun t e => t.merge (layer e)) t).get? x.path =
        (l.foldl (fun t e => t.merge (layer e)) u).get? x.path := by
    induction l generalizing t u with
    | nil => exact h
    | cons e l ih =>
      rw [List.filter_cons, List.foldl_cons]
      split_ifs with he
      · exact ih _ _ (get?_merge_congr x h e)
      · refine ih t _ ?_
        rw [get?_merge_layer (Bool.eq_false_iff.2 he), h]
  exact hrun environment _ _ rfl

end Variables

namespace Settings

/-! ### The defaults as a layer -/

theorem sectioned_toTree (s : Settings) : (toTree s).Sectioned Setting.groups := by
  rw [Tree.sectioned_iff]
  refine ⟨rfl, ?_⟩
  simp only [Setting.groups, List.forall_mem_cons]
  exact ⟨rfl, rfl, rfl, rfl, List.forall_mem_nil _⟩

/-- The value of a setting. -/
def valueIn (s : Settings) : Setting → Tree
  | .arenaDomain => .natural s.arena.domain.toNat
  | .arenaHugePages => .bool s.arena.hugePages
  | .arenaLocality => .text s.arena.locality.word
  | .arenaLock => .text s.arena.lock.word
  | .arenaSize => wordTree s.arena.sizeBytes
  | .poolCapacity => wordTree s.pool.capacity
  | .poolSlotSize => (s.pool.slotSize.map wordTree).getD .null
  | .logLevel => .text s.telemetry.logLevel
  | .metrics => .bool s.telemetry.metrics
  | .workerCpus => .list (s.workers.cpus.map wordTree)
  | .workerIterations => wordTree s.workers.iterations
  | .workerThreads => wordTree s.workers.threads

theorem get?_toTree (s : Settings) (x : Setting) : (toTree s).get? x.path = some (valueIn s x) := by
  cases x <;> rfl

theorem ordered_toTree (s : Settings) : (toTree s).Ordered := by
  have hleaf {t : Tree} (h : t.isMap = false) : t.Ordered := Tree.ordered_leaf h
  have hslot : ((s.pool.slotSize.map wordTree).getD .null).Ordered := by
    cases s.pool.slotSize <;> exact hleaf rfl
  have hsection (d : Dict String Tree) (hkeys : d.keys.Pairwise (· < ·))
      (hd : d.Forall fun e => e.2.Ordered) : (Tree.map d).Ordered :=
    .dict hkeys (List.forall_iff_forall_mem.1 hd)
  refine hsection _ ?_
    ⟨hsection _ ?_ ?_, hsection _ ?_ ?_, hsection _ ?_ ?_, hsection _ ?_ ?_⟩
  · show List.Pairwise _ ["arena", "pool", "telemetry", "workers"]
    decide
  · show List.Pairwise _ ["domain", "huge_pages", "locality", "lock", "size_bytes"]
    decide
  · exact ⟨hleaf rfl, hleaf rfl, hleaf rfl, hleaf rfl, hleaf rfl⟩
  · show List.Pairwise _ ["capacity", "slot_size"]
    decide
  · exact ⟨hleaf rfl, hslot⟩
  · show List.Pairwise _ ["log_level", "metrics"]
    decide
  · exact ⟨hleaf rfl, hleaf rfl⟩
  · show List.Pairwise _ ["cpus", "iterations", "threads"]
    decide
  · exact ⟨hleaf rfl, hleaf rfl, hleaf rfl⟩

/-! ### All layers -/

/-- The values that layers, the highest first, give to the settings; what none of them says anything
about has its default. -/
def valueOf (layers : List Tree) (x : Setting) : Tree :=
  (Tree.settled x.path (layers ++ [toTree {}])).getD .null

/-- What loading comes to when the settings have the values `v`: a value of the wrong type is
reported as such, broken rules are, or the settings have just these values. -/
def outcome (cpuCount : ℕ) (v : Setting → Tree) : Except LoadError Settings :=
  match ofValues v with
  | .error m => .error (.parsing [.misfit m])
  | .ok s =>
    match s.validate cpuCount with
    | .error e => .error (.validation e)
    | .ok _ => .ok s

theorem overlay_some (t : Tree) (layers : List Tree) :
    overlay t (layers.map some) = .ok (layers.foldl Tree.merge t) := by
  have hnone : (layers.map some).filter Option.isNone = [] := by
    simp
  simp [overlay, hnone]

/-- Layers give what their settled values come to. -/
theorem ofLayers_eq (cpuCount : ℕ) {layers : List Tree}
    (hsec : ∀ t ∈ layers, t.Sectioned Setting.groups) (hord : ∀ t ∈ layers, t.Ordered) :
    ofLayers cpuCount (layers.reverse.map some) = outcome cpuCount (valueOf layers) := by
  have hsec' : ∀ t ∈ layers.reverse, t.Sectioned Setting.groups :=
    fun t ht => hsec t (List.mem_reverse.1 ht)
  have hord' : ∀ t ∈ layers.reverse, t.Ordered := fun t ht => hord t (List.mem_reverse.1 ht)
  have hget (x : Setting) : (layers.reverse.foldl Tree.merge (toTree {})).get? x.path =
      Tree.settled x.path (layers ++ [toTree {}]) := by
    have h := Tree.get?_foldl (toTree {}) hsec' hord' x.group_mem x.key
    rwa [List.reverse_reverse] at h
  have hvalues : values (layers.reverse.foldl Tree.merge (toTree {})) = valueOf layers :=
    funext fun x => by rw [values, hget, valueOf]
  -- The lowest layer has every setting, so none is missing when the tree is read.
  have hsome (x : Setting) :
      ((layers.reverse.foldl Tree.merge (toTree {})).get? x.path).isSome := by
    rw [hget]
    refine Tree.settled_append_isSome _ ?_ _
    rw [Tree.settled_cons, Tree.settled, Tree.none_lay, get?_toTree]
    rfl
  have htree := ofTree_eq ((sectioned_toTree {}).foldl hsec' hord')
    (Tree.ordered_foldl (ordered_toTree {}) hord') hsome
  rw [ofLayers, overlay_some]
  dsimp only
  rw [htree, hvalues]
  rfl

/-- Keys that are no settings do not matter: what layers give to the settings depends on nothing in
them but what they say about the settings. -/
theorem valueOf_congr {layers layers' : List Tree}
    (h : List.Forall₂ (fun t u => ∀ x : Setting, t.get? x.path = u.get? x.path) layers layers') :
    valueOf layers = valueOf layers' := by
  funext x
  have hsettled : Tree.settled x.path (layers ++ [toTree {}]) =
      Tree.settled x.path (layers' ++ [toTree {}]) := by
    induction h with
    | nil => rfl
    | cons htu _ ih =>
      rw [List.cons_append, List.cons_append, Tree.settled_cons, Tree.settled_cons, htu x, ih]
  rw [valueOf, valueOf, hsettled]

/-- Of the variables only those matter that have to do with a setting. -/
theorem valueOf_tree_filter (environment : List (String × String)) (below : List Tree) :
    valueOf (Variables.tree (environment.filter Variables.bears) :: below) =
      valueOf (Variables.tree environment :: below) :=
  valueOf_congr
    (.cons (Variables.get?_tree_filter environment) (List.forall₂_same.2 fun _ _ _ => rfl))

/-! ### Loading -/

/-- What a path has for a layer: nothing, or a file that says `t`. -/
def Says (files : Files) (path : String) : Option Tree → Prop
  | none => files.has path = false
  | some t => ∃ text, files.entry path = some (.file (some text)) ∧
      Markup.Document.read? text = some t

variable {files : Files} {path : String}

theorem Says.ordered {t : Tree} (h : Says files path (some t)) : t.Ordered := by
  obtain ⟨text, -, ht⟩ := h
  exact (Markup.Document.ordered_of_read? ht).1

theorem Says.has {t : Tree} (h : Says files path (some t)) : files.has path = true := by
  obtain ⟨text, he, -⟩ := h
  rw [Files.has, he]
  rfl

theorem Says.fileLayer_eq {t : Tree} (h : Says files path (some t)) :
    fileLayer files path = some t := by
  obtain ⟨text, he, ht⟩ := h
  rw [fileLayer, Files.content?, he]
  exact ht

theorem Says.map_fileLayer {t : Option Tree} (h : Says files path t) :
    ([path].filter files.has).map (fileLayer files) = t.toList.map some := by
  cases t with
  | none => rw [List.filter_cons_of_neg (by simpa [Says] using h)]; rfl
  | some t =>
    rw [List.filter_cons_of_pos h.has]
    exact congrArg (fun l => [l]) h.fileLayer_eq

theorem Says.ordered_toList {t : Option Tree} (h : Says files path t) :
    ∀ u ∈ t.toList, u.Ordered := by
  cases t with
  | none => exact fun u hu => absurd hu List.not_mem_nil
  | some t => exact fun u hu => List.mem_singleton.1 hu ▸ h.ordered

/-- What is read from the usual files and the environment. -/
theorem load_eq {w : World} {base deployed : Option Tree} (hbase : Says w.files baseFile base)
    (hdeployed : Says w.files (deploymentFile (deployment w.environment)) deployed)
    (hsec : ∀ t ∈ Variables.tree w.environment :: (deployed.toList ++ base.toList),
      t.Sectioned Setting.groups) :
    load w = outcome w.host.cpuCount
      (valueOf (Variables.tree w.environment :: (deployed.toList ++ base.toList))) := by
  have hord : ∀ t ∈ Variables.tree w.environment :: (deployed.toList ++ base.toList),
      t.Ordered := by
    rw [List.forall_mem_cons, List.forall_mem_append]
    exact ⟨Variables.ordered_tree _, hdeployed.ordered_toList, hbase.ordered_toList⟩
  have hlayers : (usualFiles w).map (fileLayer w.files) ++ [some (Variables.tree w.environment)] =
      (Variables.tree w.environment :: (deployed.toList ++ base.toList)).reverse.map some := by
    rw [usualFiles, usualPaths, ← List.singleton_append, List.filter_append, List.map_append,
      hbase.map_fileLayer, hdeployed.map_fileLayer]
    cases base <;> cases deployed <;> rfl
  rw [load, hlayers]
  exact ofLayers_eq _ hsec hord

/-- What is read from a named file and the environment. -/
theorem loadFile_eq {w : World} {t : Tree} (ht : Says w.files path (some t))
    (hsec : ∀ u ∈ [Variables.tree w.environment, t], u.Sectioned Setting.groups) :
    loadFile w path = outcome w.host.cpuCount (valueOf [Variables.tree w.environment, t]) := by
  have hord : ∀ u ∈ [Variables.tree w.environment, t], u.Ordered := by
    rw [List.forall_mem_cons, List.forall_mem_singleton]
    exact ⟨Variables.ordered_tree _, ht.ordered⟩
  rw [loadFile, if_pos ht.has, ht.fileLayer_eq]
  exact ofLayers_eq _ hsec hord

/-- **Loading gives every setting the value of the highest layer that says anything about it**, in
the order of variables, file of the deployment, base file and defaults, or of variables, named file
and defaults. Nothing else has a say: no other file, no key that is no setting and, once the
deployment is known, no variable that has nothing to do with a setting. -/
theorem load_by_precedence (w : World) :
    (∀ base deployed : Option Tree, Says w.files baseFile base →
      Says w.files (deploymentFile (deployment w.environment)) deployed →
      (∀ t ∈ Variables.tree w.environment :: (deployed.toList ++ base.toList),
        t.Sectioned Setting.groups) →
      load w = outcome w.host.cpuCount
        (valueOf (Variables.tree (w.environment.filter Variables.bears) ::
          (deployed.toList ++ base.toList)))) ∧
    (∀ path t, Says w.files path (some t) →
      (∀ u ∈ [Variables.tree w.environment, t], u.Sectioned Setting.groups) →
      loadFile w path = outcome w.host.cpuCount
        (valueOf [Variables.tree (w.environment.filter Variables.bears), t])) ∧
    (∀ layers layers' : List Tree,
      List.Forall₂ (fun t u => ∀ x : Setting, t.get? x.path = u.get? x.path) layers layers' →
      valueOf layers = valueOf layers') ∧
    ∀ value, Variables.bears (deploymentVariable, value) = false := by
  refine ⟨fun base deployed hbase hdeployed hsec => ?_, fun path t ht hsec => ?_,
    fun layers layers' h => valueOf_congr h, Variables.bears_deploymentVariable⟩
  · rw [valueOf_tree_filter]
    exact load_eq hbase hdeployed hsec
  · rw [valueOf_tree_filter]
    exact loadFile_eq ht hsec

/-- Whether a path names a file that says something with the property `p` is found by reading it. -/
theorem exists_says {p : Tree → Prop} [DecidablePred p]
    (h : (match files.entry path with
      | some (.file (some text)) => (Markup.Document.read? text).any fun t => p t
      | _ => false) = true) : ∃ t, Says files path (some t) ∧ p t := by
  split at h
  · rename_i text he
    obtain ⟨t, ht, hp⟩ := (Option.any_eq_true _ _).1 h
    exact ⟨t, ⟨text, he, ht⟩, of_decide_eq_true hp⟩
  · cases h

/-- A world with something in every layer. -/
def layered : World where
  files := (FileTree.directory
    [ ("config", .directory
        [ ("hotpool.yaml", .file "{arena: {size_bytes: 8192, domain: 2}, workers: {cpus: [0]}}"),
          ("staging.yaml", .file "arena: {domain: 3, colour: red}"),
          ("production.yaml", .file "arena: {domain: 4}") ]),
      ("own.yaml", .file "pool: {capacity: 5, slot_size: 192}") ]).files
  environment :=
    [ ("HOTPOOL_ENV", "staging"), ("PATH", "/bin"), ("HOTPOOL_POOL__CAPACITY", "8"),
      ("hotpool_workers__cpus", "[]") ]
  host := Host.reference

theorem load_by_precedence_layered :
    (∃ base deployed, Says layered.files baseFile (some base) ∧
      Says layered.files (deploymentFile (deployment layered.environment)) (some deployed) ∧
      (∀ t ∈ [Variables.tree layered.environment, deployed, base], t.Sectioned Setting.groups) ∧
      load layered = outcome layered.host.cpuCount
        (valueOf [Variables.tree (layered.environment.filter Variables.bears), deployed, base])) ∧
    (∃ t, Says layered.files "own.yaml" (some t) ∧
      (∀ u ∈ [Variables.tree layered.environment, t], u.Sectioned Setting.groups) ∧
      loadFile layered "own.yaml" = outcome layered.host.cpuCount
        (valueOf [Variables.tree (layered.environment.filter Variables.bears), t])) ∧
    load layered = .ok
      { arena := { sizeBytes := 8192, domain := 3 }, pool := { capacity := 8 } } ∧
    valueOf [.map [("arena", .map [("domain", .natural 3), ("size", .natural 5)])]] =
      valueOf [.map [("arena", .map [("domain", .natural 3)]), ("colour", .text "red")]] ∧
    loadFile layered "own.yaml" = .ok { pool := { capacity := 8, slotSize := some 192 } } := by
  have hvars : (Variables.tree layered.environment).Sectioned Setting.groups := by decide +kernel
  have hsays (path : String) (h : path = "config/hotpool.yaml" ∨ path = "config/staging.yaml" ∨
      path = "own.yaml") :
      ∃ t, Says layered.files path (some t) ∧ t.Sectioned Setting.groups := by
    rcases h with rfl | rfl | rfl <;> exact exists_says (by decide +kernel)
  obtain ⟨base, hbase, hbaseSec⟩ := hsays _ (.inl rfl)
  obtain ⟨deployed, hdeployed, hdeployedSec⟩ := hsays _ (.inr (.inl rfl))
  obtain ⟨own, hown, hownSec⟩ := hsays _ (.inr (.inr rfl))
  have hsec : ∀ t ∈ [Variables.tree layered.environment, deployed, base],
      t.Sectioned Setting.groups := by
    simp only [List.forall_mem_cons]
    exact ⟨hvars, hdeployedSec, hbaseSec, by simp⟩
  have hsec' : ∀ u ∈ [Variables.tree layered.environment, own], u.Sectioned Setting.groups := by
    simp only [List.forall_mem_cons]
    exact ⟨hvars, hownSec, by simp⟩
  obtain ⟨husual, hnamed, hunknown, -⟩ := load_by_precedence layered
  refine ⟨⟨base, deployed, hbase, hdeployed, hsec, ?_⟩, ⟨own, hown, hsec', ?_⟩, ?_, ?_, ?_⟩
  · exact husual (some base) (some deployed) hbase hdeployed hsec
  · exact hnamed "own.yaml" own hown hsec'
  · decide +kernel
  · exact hunknown _ _ (.cons (fun x => by cases x <;> rfl) .nil)
  · decide +kernel

/-- A world in which two files name a policy by a dictionary. -/
def contested : World where
  files := (FileTree.directory
    [ ("config", .directory
        [ ("hotpool.yaml", .file "arena: {locality: {preferred: ~}}"),
          ("production.yaml", .file "arena: {locality: {required: ~}}") ]) ]).files
  environment := []
  host := Host.reference

/-- **The highest layer need not have its way over a policy.** The last file says `required`, but
its dictionary is laid over that of the base file, of which the first key counts. -/
theorem load_contested :
    ∃ base deployed, Says contested.files baseFile (some base) ∧
      Says contested.files (deploymentFile (deployment contested.environment)) (some deployed) ∧
      (∀ t ∈ [Variables.tree contested.environment, deployed, base],
        t.Sectioned Setting.groups) ∧
      (Variables.tree contested.environment).get? Setting.arenaLocality.path = none ∧
      (deployed.get? Setting.arenaLocality.path).map
        (Tree.readChoice "LocalityMode" localityWords) = some (.ok .required) ∧
      load contested = .ok { arena := { locality := .preferred } } := by
  obtain ⟨base, hbase, hbaseSec⟩ :
      ∃ t, Says contested.files baseFile (some t) ∧ t.Sectioned Setting.groups :=
    exists_says (by decide +kernel)
  obtain ⟨deployed, hdeployed, hdeployedSec, hrequired⟩ :
      ∃ t, Says contested.files (deploymentFile (deployment contested.environment)) (some t) ∧
        t.Sectioned Setting.groups ∧
        (t.get? Setting.arenaLocality.path).map (Tree.readChoice "LocalityMode" localityWords) =
          some (.ok .required) :=
    exists_says (by decide +kernel)
  refine ⟨base, deployed, hbase, hdeployed, ?_, rfl, hrequired, by decide +kernel⟩
  simp only [List.forall_mem_cons]
  exact ⟨by decide, hdeployedSec, hbaseSec, by simp⟩

end Settings
end Slab
