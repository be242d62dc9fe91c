import Mathlib.Data.Finset.Basic
import Slab.Proofs.Settings.Loaded
import Slab.Proofs.Settings.Precedence
import Slab.Proofs.Settings.Spelling

/-!
# Settings written as variables

Every setting can be written as a variable of the environment, and is read back from it.

* `Setting.envName`: the name of the variable of a setting;
* `Settings.text gap s x`: the text of a setting, with `gap` blanks after the commas of a list;
* `Settings.written gap s S`, `Settings.keep S s`: the variables for the settings in `S`, and the
  settings that are as in `s` on `S` and as the defaults elsewhere;
* `Settings.load_of_written`: **without files, loading gives back just what is written.**
-/

namespace Slab

/-- The name of the variable of a setting. -/
def Setting.envName (x : Setting) : String :=
  "HOTPOOL_" ++ String.ofList ((x.group ++ "__" ++ x.key).toList.map Char.toUpper)

theorem Variables.path?_envName (x : Setting) : path? x.envName = some x.path := by
  cases x <;> decide +kernel

theorem Setting.path_injective {x y : Setting} (h : x.path = y.path) : x = y := by
  revert h
  cases x <;> cases y <;> first | exact fun _ => rfl | exact fun h => absurd h (by decide)

namespace Settings

/-! ### Settings in part -/

/-- What `f` reads from `s` if the setting `x` is in `S`, else from the defaults. -/
def pick {α : Type} (S : Finset Setting) (s : Settings) (x : Setting) (f : Settings → α) : α :=
  if x ∈ S then f s else f {}

/-- The settings that are as in `s` on `S` and as the defaults elsewhere. -/
def keep (S : Finset Setting) (s : Settings) : Settings where
  arena :=
    { sizeBytes := pick S s .arenaSize fun s => s.arena.sizeBytes
      domain := pick S s .arenaDomain fun s => s.arena.domain
      hugePages := pick S s .arenaHugePages fun s => s.arena.hugePages
      locality := pick S s .arenaLocality fun s => s.arena.locality
      lock := pick S s .arenaLock fun s => s.arena.lock }
  pool :=
    { capacity := pick S s .poolCapacity fun s => s.pool.capacity
      slotSize := pick S s .poolSlotSize fun s => s.pool.slotSize }
  workers :=
    { threads := pick S s .workerThreads fun s => s.workers.threads
      cpus := pick S s .workerCpus fun s => s.workers.cpus
      iterations := pick S s .workerIterations fun s => s.workers.iterations }
  telemetry :=
    { logLevel := pick S s .logLevel fun s => s.telemetry.logLevel
      metrics := pick S s .metrics fun s => s.telemetry.metrics }

variable {S : Finset Setting} {s : Settings} {cpuCount : ℕ}

theorem keep_eq_self (h : ∀ x, x ∈ S) : s.keep S = s := by
  simp only [keep, pick, h, if_true]

/-- What is kept has the values of the settings on `S` and the default ones elsewhere. -/
theorem valueIn_keep (S : Finset Setting) (s : Settings) (x : Setting) :
    valueIn (s.keep S) x = pick S s x fun s => valueIn s x := by
  cases x <;> dsimp only [valueIn, keep, pick] <;> split <;> rfl

theorem validate_of_holds (h : ∀ r : Rule, r.holds cpuCount s = true) :
    s.validate cpuCount = .ok () :=
  (s.validate_eq_ok_iff cpuCount).2 fun r => r.holds_iff.1 (h r)

/-- A rule bounds one setting, and the defaults obey it. -/
theorem holds_keep (S : Finset Setting) {r : Rule} (h : r.holds cpuCount s = true) :
    r.holds cpuCount (s.keep S) = true := by
  cases r <;> simp only [Rule.holds, keep, pick] at h ⊢ <;> split_ifs <;>
    first | exact h | rfl

theorem validate_keep (S : Finset Setting) (h : s.validate cpuCount = .ok ()) :
    (s.keep S).validate cpuCount = .ok () :=
  validate_of_holds fun r => holds_keep S (holds_of_validate h r)

/-! ### Values that are read back -/

theorem readNatural_natural {bound n : ℕ} (h : n < bound) (name : String) :
    (Tree.natural n).readNatural bound name = .ok n :=
  if_pos h

theorem readSize_wordTree (n : UInt64) : (wordTree n).readSize = .ok n := by
  rw [Tree.readSize, wordTree, readNatural_natural n.toNat_lt]
  exact congrArg Except.ok (UInt64.ofNat_toNat)

theorem readCount_wordTree (n : UInt64) : (wordTree n).readCount = .ok n := by
  rw [Tree.readCount, wordTree, readNatural_natural n.toNat_lt]
  exact congrArg Except.ok (UInt64.ofNat_toNat)

theorem readDomain_natural (n : UInt32) : (Tree.natural n.toNat).readDomain = .ok n := by
  rw [Tree.readDomain, readNatural_natural n.toNat_lt]
  exact congrArg Except.ok (UInt32.ofNat_toNat)

theorem readItems_map (l : List UInt64) (i : ℕ) :
    Tree.readItems Tree.readSize i (l.map wordTree) = .ok l := by
  induction l generalizing i with
  | nil => rfl
  | cons n l ih =>
    rw [List.map_cons, Tree.readItems, readSize_wordTree]
    dsimp only
    rw [ih]
    rfl

theorem readOption_wordTree (n : Option UInt64) :
    ((n.map wordTree).getD .null).readOption Tree.readSize = .ok n := by
  cases n with
  | none => rfl
  | some n =>
    show ((wordTree n).readSize).map some = _
    rw [readSize_wordTree]
    rfl

/-- Settings are read back from their values. -/
theorem ofValues_valueIn (s : Settings) : ofValues (valueIn s) = .ok s := by
  have harena : arenaOfValues (valueIn s) = .ok s.arena := by
    have hlocality : (valueIn s .arenaLocality).readChoice "LocalityMode" localityWords =
        .ok s.arena.locality := by
      show Tree.readWord localityWords s.arena.locality.word = _
      cases s.arena.locality <;> rfl
    have hlock : (valueIn s .arenaLock).readChoice "LockMode" lockWords = .ok s.arena.lock := by
      show Tree.readWord lockWords s.arena.lock.word = _
      cases s.arena.lock <;> rfl
    unfold arenaOfValues Setting.read
    rw [hlocality, hlock, valueIn, valueIn, valueIn, readDomain_natural, readSize_wordTree]
    rfl
  have hpool : poolOfValues (valueIn s) = .ok s.pool := by
    unfold poolOfValues Setting.read
    rw [valueIn, valueIn, readSize_wordTree, readOption_wordTree]
    rfl
  have htelemetry : telemetryOfValues (valueIn s) = .ok s.telemetry := rfl
  have hworkers : workersOfValues (valueIn s) = .ok s.workers := by
    have hcpus : (valueIn s .workerCpus).readList Tree.readSize = .ok s.workers.cpus :=
      readItems_map _ 0
    unfold workersOfValues Setting.read
    rw [hcpus, valueIn, valueIn, readSize_wordTree, readCount_wordTree]
    rfl
  rw [ofValues, harena, hpool, htelemetry, hworkers]
  rfl

/-! ### Texts -/

/-- The text of a setting, if it has one, with `gap` blanks after the commas of a list. -/
def text (gap : ℕ) (s : Settings) : Setting → Option String
  | .arenaDomain => some (Numeral.decimal s.arena.domain.toNat)
  | .arenaHugePages => some (Text.flag s.arena.hugePages)
  | .arenaLocality => some s.arena.locality.word
  | .arenaLock => some s.arena.lock.word
  | .arenaSize => some (Numeral.decimal s.arena.sizeBytes.toNat)
  | .poolCapacity => some (Numeral.decimal s.pool.capacity.toNat)
  | .poolSlotSize => s.pool.slotSize.map fun n => Numeral.decimal n.toNat
  | .logLevel => some s.telemetry.logLevel
  | .metrics => some (Text.flag s.telemetry.metrics)
  | .workerCpus =>
    some (String.ofList
      ('[' :: (VariableValue.listed (List.replicate gap ' ') (s.workers.cpus.map UInt64.toNat) ++
        [']'])))
  | .workerIterations => some (Numeral.decimal s.workers.iterations.toNat)
  | .workerThreads => some (Numeral.decimal s.workers.threads.toNat)

/-- A word for how much is logged is read as it stands, in any letter case. -/
theorem read_level {level : String}
    (h : ∃ l ∈ Rule.levels, level.toList.map Char.toLower = l.toList) :
    VariableValue.read level = .text level := by
  obtain ⟨l, hl, heq⟩ := h
  have hletters : ∀ l ∈ Rule.levels, l.toList ≠ [] ∧ l.toList.all Char.isAlpha = true ∧
      ¬ "true".toList <+: l.toList ∧ ¬ "false".toList <+: l.toList := by decide
  obtain ⟨hne, halpha, htrue, hfalse⟩ := hletters l hl
  -- If it began like a truth value, so would the word in small letters.
  have hstart {p : List Char} (hlower : p.map Char.toLower = p) (hp : ¬ p <+: l.toList) :
      VariableValue.dropStart? p level.toList = none := by
    by_contra hsome
    obtain ⟨r, hr⟩ := Option.ne_none_iff_exists'.1 hsome
    refine hp ⟨r.map Char.toLower, ?_⟩
    rw [← heq, VariableValue.append_of_dropStart? hr, List.map_append, hlower]
  refine VariableValue.read_letters (fun hnil => hne ?_) (fun c hc => ?_) (hstart rfl htrue)
    (hstart rfl hfalse)
  · rw [← heq, hnil]
    rfl
  · have hlower : c.toLower ∈ l.toList := heq ▸ List.mem_map_of_mem hc
    exact VariableValue.isAlpha_of_toLower (List.all_eq_true.1 halpha _ hlower)

theorem read_flag (b : Bool) : VariableValue.read (Text.flag b) = .bool b := by
  cases b <;> rfl

theorem read_number (n : UInt64) : VariableValue.read (Numeral.decimal n.toNat) = wordTree n :=
  VariableValue.read_decimal n.toNat_lt

/-- **The text of a setting is read back as its value.** -/
theorem read_text {gap : ℕ} (hlevel : Rule.logLevel.holds cpuCount s = true) {x : Setting}
    {t : String} (h : text gap s x = some t) : VariableValue.read t = valueIn s x := by
  have hword {w : String} (hw : w.toList ≠ [] ∧ w.toList.all Char.isAlpha = true ∧
      VariableValue.dropStart? "true".toList w.toList = none ∧
      VariableValue.dropStart? "false".toList w.toList = none) : VariableValue.read w = .text w :=
    VariableValue.read_letters hw.1 (List.all_eq_true.1 hw.2.1) hw.2.2.1 hw.2.2.2
  cases x <;> simp only [text, Option.some.injEq, Option.map_eq_some_iff] at h
  case arenaDomain =>
    have hlt : s.arena.domain.toNat < UInt64.size :=
      Nat.lt_trans s.arena.domain.toNat_lt (by decide)
    rw [← h, VariableValue.read_decimal hlt, valueIn]
  case arenaLocality =>
    rw [← h, valueIn]
    cases s.arena.locality <;> exact hword (by decide)
  case arenaLock =>
    rw [← h, valueIn]
    cases s.arena.lock <;> exact hword (by decide)
  case poolSlotSize =>
    obtain ⟨n, hn, rfl⟩ := h
    rw [read_number, valueIn, hn]
    rfl
  case logLevel => rw [← h, valueIn, read_level (Rule.found_levelPattern.1 hlevel)]
  case workerCpus =>
    have hgap : ∀ c ∈ List.replicate gap ' ', VariableValue.isSpace c = true := fun c hc => by
      rw [List.eq_of_mem_replicate hc]
      rfl
    have hbound : ∀ n ∈ s.workers.cpus.map UInt64.toNat, n < UInt64.size := fun n hn => by
      obtain ⟨m, -, rfl⟩ := List.mem_map.1 hn
      exact m.toNat_lt
    rw [← h, valueIn, VariableValue.read_list hgap hbound, List.map_map]
    rfl
  case arenaHugePages | metrics => rw [← h, valueIn, read_flag]
  all_goals rw [← h, valueIn, read_number]

theorem text_eq_none {gap : ℕ} {x : Setting} (h : text gap s x = none) :
    valueIn s x = valueIn {} x := by
  cases x <;> simp only [text, reduceCtorEq, Option.map_eq_none_iff] at h
  rw [valueIn, h]
  rfl

theorem valueIn_isMap (s : Settings) (x : Setting) : (valueIn s x).isMap = false := by
  cases x
  case poolSlotSize =>
    rw [valueIn]
    cases s.pool.slotSize <;> rfl
  all_goals rfl

/-! ### Environments -/

/-- The variables for the settings in `S`. -/
def written (gap : ℕ) (s : Settings) (S : Finset Setting) : List (String × String) :=
  (Setting.every.filter (· ∈ S)).filterMap fun x => (text gap s x).map fun t => (x.envName, t)

theorem mem_written {gap : ℕ} {e : String × String} :
    e ∈ written gap s S ↔ ∃ x ∈ S, ∃ t, text gap s x = some t ∧ e = (x.envName, t) := by
  rw [written, List.mem_filterMap]
  constructor
  · rintro ⟨x, hx, he⟩
    obtain ⟨t, ht, rfl⟩ := Option.map_eq_some_iff.1 he
    exact ⟨x, of_decide_eq_true (List.mem_filter.1 hx).2, t, ht, rfl⟩
  · rintro ⟨x, hx, t, ht, rfl⟩
    exact ⟨x, List.mem_filter.2 ⟨x.mem_every, decide_eq_true hx⟩,
      Option.map_eq_some_iff.2 ⟨t, ht, rfl⟩⟩

section Written

variable {gap : ℕ} {environment : List (String × String)}

/-- What is written about a setting says its value there and nothing anywhere else. -/
theorem layer_written (hlevel : Rule.logLevel.holds cpuCount s = true) {e : String × String}
    (he : e ∈ written gap s S) :
    ∃ x ∈ S, (text gap s x).isSome ∧ Variables.layer e = Tree.nest x.path (valueIn s x) := by
  obtain ⟨x, hx, t, ht, rfl⟩ := mem_written.1 he
  have hlayer : Variables.layer (x.envName, t) = Tree.nest x.path (VariableValue.read t) :=
    Variables.layer_of_path? (Variables.path?_envName x) t
  rw [hlayer, read_text hlevel ht]
  exact ⟨x, hx, Option.isSome_of_eq_some ht, rfl⟩

theorem get?_nest_path (x y : Setting) (t : Tree) :
    (Tree.nest x.path t).get? y.path = if y = x then some t else none := by
  have hnest : (Tree.nest x.path t).get? y.path =
      if y.group = x.group then (if y.key = x.key then some t else none) else none := by
    rw [Setting.path, Setting.path, Tree.get?_section_key, Tree.nest_cons, Tree.nest_cons,
      Tree.get?_singleton]
    split_ifs with hg hk
    · rw [Option.bind_some, Tree.get?_singleton, if_pos hk]
      rfl
    · rw [Option.bind_some, Tree.get?_singleton, if_neg hk]
    · rfl
  have hpath : y = x ↔ y.group = x.group ∧ y.key = x.key :=
    ⟨fun h => h ▸ ⟨rfl, rfl⟩, fun h => Setting.path_injective (by rw [Setting.path, h.1, h.2]; rfl)⟩
  rw [hnest]
  split_ifs <;> simp_all

/-- What variables say about a setting is told from what each of them says about it. -/
theorem get?_tree (h : ∀ e ∈ environment, (Variables.layer e).Sectioned Setting.groups)
    (x : Setting) : (Variables.tree environment).get? x.path =
      Tree.settled x.path (environment.map Variables.layer).reverse := by
  have hord : ∀ t ∈ environment.map Variables.layer, t.Ordered := by
    intro t ht
    obtain ⟨e, -, rfl⟩ := List.mem_map.1 ht
    exact Variables.ordered_layer e
  rw [Variables.tree_eq, ← Tree.settled_append_singleton (t := .map []) (by rfl)]
  exact Tree.get?_foldl _ (List.forall_mem_map.2 h) hord x.group_mem x.key

variable (henv : ∀ e, e ∈ environment.filter Variables.bears ↔ e ∈ written gap s S)

include henv in
theorem sectioned_tree (hlevel : Rule.logLevel.holds cpuCount s = true) :
    (Variables.tree environment).Sectioned Setting.groups := by
  rw [Variables.tree_eq]
  apply Tree.sectioned_nil.foldl
  · intro t ht
    obtain ⟨e, he, rfl⟩ := List.mem_map.1 ht
    cases hb : Variables.bears e with
    | false => exact Variables.sectioned_layer hb
    | true =>
      obtain ⟨x, -, -, hx⟩ := layer_written hlevel ((henv e).1 (List.mem_filter.2 ⟨he, hb⟩))
      rw [hx]
      exact Tree.sectioned_nest_cons_cons x.group x.key [] _
  · intro t ht
    obtain ⟨e, -, rfl⟩ := List.mem_map.1 ht
    exact Variables.ordered_layer e

include henv in
/-- What the variables say about a setting: its value, if it is in `S` and has a text. -/
theorem get?_tree_written (hlevel : Rule.logLevel.holds cpuCount s = true) (x : Setting) :
    (Variables.tree (environment.filter Variables.bears)).get? x.path =
      if x ∈ S ∧ (text gap s x).isSome then some (valueIn s x) else none := by
  have hlayer (e : String × String) (he : e ∈ environment.filter Variables.bears) :
      ∃ y ∈ S, (text gap s y).isSome ∧ Variables.layer e = Tree.nest y.path (valueIn s y) :=
    layer_written hlevel ((henv e).1 he)
  rw [get?_tree]
  · split_ifs with hx
    · obtain ⟨hS, hsome⟩ := hx
      apply Tree.settled_eq_some (Tree.ne_map_of_isMap (valueIn_isMap s x))
      · intro t ht
        obtain ⟨e, he, rfl⟩ := List.mem_map.1 (List.mem_reverse.1 ht)
        obtain ⟨y, -, -, hy⟩ := hlayer e he
        rw [hy, get?_nest_path]
        split_ifs with hxy
        · exact .inr (hxy ▸ rfl)
        · exact .inl rfl
      · obtain ⟨t, ht⟩ := Option.isSome_iff_exists.1 hsome
        have he := (henv _).2 (mem_written.2 ⟨x, hS, t, ht, rfl⟩)
        refine ⟨_, List.mem_reverse.2 (List.mem_map_of_mem he), ?_⟩
        rw [Variables.layer_of_path? (Variables.path?_envName x), read_text hlevel ht,
          get?_nest_path, if_pos rfl]
    · apply Tree.settled_eq_none
      intro t ht
      obtain ⟨e, he, rfl⟩ := List.mem_map.1 (List.mem_reverse.1 ht)
      obtain ⟨y, hS, hsome, hy⟩ := hlayer e he
      have hxy : x ≠ y := fun hxy => hx (hxy ▸ ⟨hS, hsome⟩)
      rw [hy, get?_nest_path, if_neg hxy]
  · intro e he
    obtain ⟨y, -, -, hy⟩ := hlayer e he
    rw [hy]
    exact Tree.sectioned_nest_cons_cons y.group y.key [] _

include henv in
/-- The values that come of it are those of the settings on `S` and the default ones elsewhere. -/
theorem valueOf_written (hlevel : Rule.logLevel.holds cpuCount s = true) :
    valueOf [Variables.tree (environment.filter Variables.bears)] = valueIn (s.keep S) := by
  funext x
  rw [valueOf, List.singleton_append, Tree.settled_cons, Tree.settled_cons, Tree.settled,
    get?_tree_written henv hlevel, get?_toTree, valueIn_keep, pick]
  split_ifs with h hS hS
  · rw [Tree.none_lay, Tree.lay, Tree.upon_of_ne_map (Tree.ne_map_of_isMap (valueIn_isMap s x))]
    rfl
  · exact absurd h.1 hS
  · -- What has no text is a slot size that is not set, as in the defaults.
    have hnone : text gap s x = none := by
      cases ht : text gap s x with
      | none => rfl
      | some t => exact absurd ⟨hS, by rw [ht]; rfl⟩ h
    exact (text_eq_none hnone).symm
  · rfl

end Written

/-- **Without files, loading gives back just what is written in the environment**: the settings in
`S`, each in a variable of its own, and the defaults for all others. -/
theorem load_of_written {w : World} {s : Settings} {gap : ℕ} {S : Finset Setting}
    (hbase : w.files.has baseFile = false)
    (hdeployed : w.files.has (deploymentFile (deployment w.environment)) = false)
    (hvalid : s.validate w.host.cpuCount = .ok ())
    (henv : ∀ e, e ∈ w.environment.filter Variables.bears ↔ e ∈ written gap s S) :
    load w = .ok (s.keep S) ∧ ((∀ x, x ∈ S) → load w = .ok s) := by
  have hlevel := holds_of_validate hvalid .logLevel
  have hbase' : Says w.files baseFile none := hbase
  have hdeployed' : Says w.files (deploymentFile (deployment w.environment)) none := hdeployed
  have hvalues : valueOf [Variables.tree w.environment] = valueIn (s.keep S) := by
    rw [← valueOf_tree_filter, valueOf_written henv hlevel]
  have hload : load w = .ok (s.keep S) := by
    rw [load_eq hbase' hdeployed' (List.forall_mem_singleton.2 (sectioned_tree henv hlevel))]
    show outcome w.host.cpuCount (valueOf [Variables.tree w.environment]) = _
    rw [hvalues, outcome, ofValues_valueIn]
    dsimp only
    rw [validate_keep S hvalid]
  exact ⟨hload, fun hall => by rw [hload, keep_eq_self hall]⟩

/-- Settings that differ from the defaults in most respects. -/
def unusual : Settings where
  arena := { sizeBytes := 18446744073709551615, domain := 7, locality := .preferred }
  pool := { capacity := 9, slotSize := some 192 }
  workers := { cpus := [0, 0], iterations := 18446744073709551615 }
  telemetry := { logLevel := "Debug" }

/-- A world whose environment holds some of them, in an order of its own and among other things. -/
def spelled : World where
  files := FileTree.empty.files
  environment :=
    [ ("HOTPOOL_WORKERS__CPUS", "[0, 0]"), ("PATH", "/bin"), ("HOTPOOL_ENV", "staging"),
      ("HOTPOOL_TELEMETRY__LOG_LEVEL", "Debug"),
      ("HOTPOOL_ARENA__SIZE_BYTES", "18446744073709551615") ]
  host := Host.reference

/-- A world whose environment holds all of them. -/
def spelledOut : World :=
  { spelled with environment := written 0 unusual Setting.every.toFinset }

theorem load_of_written_spelled :
    unusual.validate Host.reference.cpuCount = .ok () ∧
    spelled.files.has (deploymentFile (deployment spelled.environment)) = false ∧
    (spelled.environment.filter Variables.bears).Perm
      (written 1 unusual {.arenaSize, .workerCpus, .logLevel}) ∧
    load spelled = .ok
      { arena := { sizeBytes := 18446744073709551615 }, workers := { cpus := [0, 0] },
        telemetry := { logLevel := "Debug" } } ∧
    load spelledOut = .ok unusual := by
  have hvalid : unusual.validate Host.reference.cpuCount = .ok () := by decide +kernel
  have hperm : (spelled.environment.filter Variables.bears).Perm
      (written 1 unusual {.arenaSize, .workerCpus, .logLevel}) := by decide +kernel
  have hall : spelledOut.environment.filter Variables.bears =
      written 0 unusual Setting.every.toFinset := by decide +kernel
  refine ⟨hvalid, rfl, hperm, ?_, ?_⟩
  · exact (load_of_written (w := spelled) rfl rfl hvalid fun e => hperm.mem_iff).1
  · have henv (e : String × String) : e ∈ spelledOut.environment.filter Variables.bears ↔
        e ∈ written 0 unusual Setting.every.toFinset := by rw [hall]
    exact (load_of_written (w := spelledOut) rfl rfl hvalid henv).2
      fun x => List.mem_toFinset.2 x.mem_every

end Settings
end Slab
