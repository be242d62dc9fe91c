import Mathlib.Data.List.Nodup
import Slab.Proofs.Pattern
import Slab.Proofs.Settings.Findings
import Slab.Settings.Validation

/-!
# Validation of settings

Settings are accepted just if they obey all rules, and the report on others has one line for each
rule that they break.

* `Rule.Obeyed`: the rules in plain terms;
* `Rule.holds_iff`: a check of a rule decides it, the one of the log level by a pattern;
* `Settings.remarks_findings`: what is found, part by part, are the broken rules;
* `Settings.validate_eq_ok_iff`: when settings are accepted;
* `Settings.Judged`, `Settings.validate_judges`: **validation is exact, and its report complete**.
-/

namespace Slab

namespace Rule

/-- What a rule demands of settings on a machine with `cpuCount` processors. -/
def Obeyed (cpuCount : ℕ) (s : Settings) : Rule → Prop
  | arenaSize => 4096 ≤ s.arena.sizeBytes.toNat
  | arenaDomain => s.arena.domain.toNat ≤ 1023
  | poolCapacity => 1 ≤ s.pool.capacity.toNat ∧ s.pool.capacity.toNat ≤ Nat.pow 2 32 - 2
  | poolSlotSize => ∀ n, s.pool.slotSize = some n → 1 ≤ n.toNat ∧ n.toNat ≤ 1048576
  | workerThreads => 1 ≤ s.workers.threads.toNat ∧ s.workers.threads.toNat ≤ 1024
  | workerCpus => ∀ cpu ∈ s.workers.cpus, cpu.toNat < cpuCount
  | workerIterations => 1 ≤ s.workers.iterations.toNat
  | logLevel => s.telemetry.logLevel.toLower ∈ ["trace", "debug", "info", "warn", "error"]

/-- The line that says that a rule is broken. -/
def line : Rule → String
  | arenaSize => "  - arena.size_bytes: range"
  | arenaDomain => "  - arena.domain: range"
  | poolCapacity => "  - pool.capacity: capacity_out_of_range"
  | poolSlotSize => "  - pool.slot_size: range"
  | workerThreads => "  - workers.threads: range"
  | workerCpus => "  - workers.cpus: unknown_cpu"
  | workerIterations => "  - workers.iterations: range"
  | logLevel => "  - telemetry.log_level: invalid_log_level"

theorem mem_every (r : Rule) : r ∈ every := by cases r <;> decide

/-- What is remarked on a broken rule. -/
def remark (r : Rule) : Remark := ⟨fieldPath r.part r.field, r.code⟩

theorem line_remark (r : Rule) : ValidationError.line r.remark = r.line := by cases r <;> decide

theorem nodup_lines : (every.map line).Nodup := by decide

/-! ### The log level -/

theorem letters_of_mem_levels {level : String} (h : level ∈ levels) :
    ∀ c ∈ level.toList, c ∉ Text.folded ∧ c.toLower = c := by
  have hall : ∀ level ∈ levels,
      level.toList.all (fun c => decide (c ∉ Text.folded ∧ c.toLower = c)) = true := by decide
  intro c hc
  exact of_decide_eq_true (List.all_eq_true.1 (hall level h) c hc)

/-- The pattern of log levels is found in just these words, in any letter case. -/
theorem found_levelPattern {s : List Char} :
    levelPattern.found s = true ↔ ∃ level ∈ levels, s.map Char.toLower = level.toList := by
  have hwords : levels.map (fun level => Text.Pattern.word level.toList) =
      (levels.map String.toList).map Text.Pattern.word := by
    rw [List.map_map]
    rfl
  rw [levelPattern, hwords, Text.Pattern.found_whole_iff]
  simp only [List.mem_map, exists_exists_and_eq_and]
  refine exists_congr fun level => and_congr_right fun hlevel => ?_
  exact Text.map_fold_eq_iff (letters_of_mem_levels hlevel)

example : levelPattern.found "Warn".toList = true ∧ levelPattern.found "warn\n".toList = false := by
  decide

theorem exists_level_iff {level : String} :
    (∃ l ∈ levels, level.toList.map Char.toLower = l.toList) ↔ level.toLower ∈ levels := by
  have heq (l : String) : level.toList.map Char.toLower = l.toList ↔ level.toLower = l := by
    have hmap : level.toLower = level.map Char.toLower := rfl
    rw [← String.toList_inj, hmap, String.toList_map]
  simp only [heq, exists_eq_right']

variable {cpuCount : ℕ} {s : Settings}

/-- The check of a rule decides what the rule demands. -/
theorem holds_iff (r : Rule) : r.holds cpuCount s = true ↔ r.Obeyed cpuCount s := by
  cases r with
  | arenaSize => exact decide_eq_true_iff
  | arenaDomain => exact decide_eq_true_iff
  | poolCapacity =>
    have hsize : UInt32.size = 4294967296 := rfl
    have hpow : Nat.pow 2 32 = 4294967296 := rfl
    simp only [holds, Obeyed, Bool.and_eq_true, decide_eq_true_eq]
    omega
  | poolSlotSize =>
    rw [holds, Obeyed]
    cases s.pool.slotSize with
    | none => simp
    | some n => simp
  | workerThreads => simp only [holds, Obeyed, Bool.and_eq_true, decide_eq_true_eq]
  | workerCpus => simp only [holds, Obeyed, List.all_eq_true, decide_eq_true_eq]
  | workerIterations => exact decide_eq_true_iff
  | logLevel => exact found_levelPattern.trans exists_level_iff

end Rule

namespace Settings

variable (cpuCount : ℕ) (s : Settings)

/-- The rules among some that settings break. -/
def broken (l : List Rule) : List Rule := l.filter fun r => !r.holds cpuCount s

theorem mem_broken {l : List Rule} {r : Rule} :
    r ∈ s.broken cpuCount l ↔ r ∈ l ∧ ¬ r.Obeyed cpuCount s := by
  rw [broken, List.mem_filter, ← Rule.holds_iff, Bool.not_eq_true', Bool.not_eq_true]

/-- Entries that some elements of a list add are those of the others left out. -/
theorem flatMap_ite {α β : Type} (p : α → Bool) (f : α → β) (l : List α) :
    (l.flatMap fun a => if p a then [] else [f a]) = (l.filter fun a => !p a).map f := by
  induction l with
  | nil => rfl
  | cons a l ih =>
    rw [List.flatMap_cons, ih, List.filter_cons]
    cases p a <;> rfl

/-! ### One part -/

/-- The rules of one part. -/
def rulesOf (part : String) : List Rule := Rule.every.filter fun r => r.part = part

/-- What is found wrong with one part. -/
def findingsIn (part : String) : Findings := (rulesOf part).foldl (s.check cpuCount) []

/-- What a rule adds to what is found. -/
def complaint (r : Rule) : Findings :=
  if r.holds cpuCount s then [] else [(r.field, .complaints [{ code := r.code }])]

theorem flatMap_complaint (l : List Rule) : l.flatMap (s.complaint cpuCount) =
    (s.broken cpuCount l).map fun r => (r.field, .complaints [{ code := r.code }]) :=
  flatMap_ite _ _ l

theorem check_perm (d : Findings) (r : Rule)
    (h : ∀ k ∈ Dict.keys (s.complaint cpuCount r), k ∉ d.keys) :
    (s.check cpuCount d r).Perm (s.complaint cpuCount r ++ d) := by
  unfold complaint check at *
  split_ifs at h ⊢
  · exact List.Perm.refl _
  · exact Findings.perm_complain (h r.field List.mem_cons_self) _

/-- In one part, complaints about the fields of the broken rules are found. -/
theorem findingsIn_perm {part : String} (hpart : part ∈ parts) :
    (s.findingsIn cpuCount part).Perm ((s.broken cpuCount (rulesOf part)).map fun r =>
      (r.field, .complaints [{ code := r.code }])) := by
  have hfields : ∀ part ∈ parts, ((rulesOf part).map Rule.field).Nodup := by decide
  have hkeys : (Dict.keys ((rulesOf part).flatMap (s.complaint cpuCount) ++ [])).Nodup := by
    rw [List.append_nil, flatMap_complaint, Dict.keys, List.map_map]
    exact (hfields part hpart).sublist (List.filter_sublist.map _)
  have hperm := Dict.perm_foldl (s.check_perm cpuCount) (rulesOf part) hkeys
  rwa [List.append_nil, flatMap_complaint] at hperm

/-- What is remarked on one part. -/
theorem remarks_findingsIn {part : String} (hpart : part ∈ parts) :
    ((Finding.inside (s.findingsIn cpuCount part)).remarks .byKey part).Perm
      ((s.broken cpuCount (rulesOf part)).map Rule.remark) := by
  rw [Finding.remarks_inside]
  refine ((s.findingsIn_perm cpuCount hpart).flatMap_right _).trans (List.Perm.of_eq ?_)
  rw [List.flatMap_map]
  have hpath : ∀ r ∈ s.broken cpuCount (rulesOf part),
      r.remark = ⟨fieldPath part r.field, r.code⟩ := by
    intro r hr
    have hmem := ((s.mem_broken cpuCount).1 hr).1
    rw [Rule.remark, of_decide_eq_true (List.mem_filter.1 hmem).2]
  rw [List.map_congr_left hpath, List.map_eq_flatMap]
  rfl

/-! ### All parts -/

/-- What a part adds to what is found. -/
def findingOf (part : String) : Findings :=
  if (s.findingsIn cpuCount part).isEmpty then []
  else [(part, .inside (s.findingsIn cpuCount part))]

theorem flatMap_findingOf (l : List String) : l.flatMap (s.findingOf cpuCount) =
    (l.filter fun part => !(s.findingsIn cpuCount part).isEmpty).map fun part =>
      (part, .inside (s.findingsIn cpuCount part)) :=
  flatMap_ite _ _ l

theorem checkPart_perm (d : Findings) (part : String)
    (h : ∀ k ∈ Dict.keys (s.findingOf cpuCount part), k ∉ d.keys) :
    (s.checkPart cpuCount d part).Perm (s.findingOf cpuCount part ++ d) := by
  show (d.lookInto part (s.findingsIn cpuCount part)).Perm _
  unfold findingOf at *
  split_ifs at h ⊢ with hnone
  · rw [List.isEmpty_iff.1 hnone]
    exact List.Perm.refl _
  · exact Findings.perm_lookInto (h part List.mem_cons_self) (mt List.isEmpty_iff.2 hnone)

/-- In the settings, the parts in which something is found are found. -/
theorem findings_perm : (s.findings cpuCount).Perm (parts.flatMap (s.findingOf cpuCount)) := by
  have hkeys : (Dict.keys (parts.flatMap (s.findingOf cpuCount) ++ [])).Nodup := by
    have hparts : parts.Nodup := by decide
    rw [List.append_nil, flatMap_findingOf, Dict.keys, List.map_map]
    exact (List.map_id _).symm ▸ hparts.sublist List.filter_sublist
  have hperm := Dict.perm_foldl (s.checkPart_perm cpuCount) parts hkeys
  rwa [List.append_nil] at hperm

theorem rulesOf_parts : parts.flatMap rulesOf = Rule.every := by decide

/-- **What is remarked, in whatever order, are the broken rules.** -/
theorem remarks_findings (order : Listing) : ((s.findings cpuCount).remarks order).Perm
    ((s.broken cpuCount Rule.every).map Rule.remark) := by
  have hpart : ∀ part ∈ parts, ((s.findingOf cpuCount part).flatMap fun e =>
      e.2.remarks .byKey (fieldPath "" e.1)).Perm
        ((s.broken cpuCount (rulesOf part)).map Rule.remark) := by
    intro part h
    refine List.Perm.trans (List.Perm.of_eq ?_) (s.remarks_findingsIn cpuCount h)
    unfold findingOf
    split_ifs with hnone
    · rw [List.isEmpty_iff.1 hnone]
      rfl
    · exact List.append_nil _
  refine (Findings.remarks_perm order (s.findings_perm cpuCount)).trans ?_
  rw [List.flatMap_assoc]
  refine (List.Perm.flatMap_left parts hpart).trans (List.Perm.of_eq ?_)
  rw [← rulesOf_parts, broken, List.filter_flatMap, List.map_flatMap]
  rfl

/-! ### The verdict -/

theorem broken_every_eq_nil_iff :
    s.broken cpuCount Rule.every = [] ↔ ∀ r : Rule, r.Obeyed cpuCount s := by
  rw [List.eq_nil_iff_forall_not_mem]
  simp only [mem_broken, Rule.mem_every, true_and, not_not]

/-- Nothing is found wrong with settings just if they break no rule. -/
theorem findings_eq_nil_iff : s.findings cpuCount = [] ↔ s.broken cpuCount Rule.every = [] := by
  constructor
  · intro h
    have hperm := s.remarks_findings cpuCount .byKey
    rw [h] at hperm
    exact List.map_eq_nil_iff.1 hperm.symm.eq_nil
  · intro h
    have hpart : ∀ part ∈ parts, s.findingOf cpuCount part = [] := by
      intro part hpart
      have hbroken : s.broken cpuCount (rulesOf part) = [] := by
        refine List.eq_nil_iff_forall_not_mem.2 fun r hr => ?_
        rw [mem_broken] at hr
        exact List.eq_nil_iff_forall_not_mem.1 h r ((s.mem_broken cpuCount).2 ⟨r.mem_every, hr.2⟩)
      have hnone := s.findingsIn_perm cpuCount hpart
      rw [hbroken] at hnone
      rw [findingOf, hnone.eq_nil]
      rfl
    have hperm := s.findings_perm cpuCount
    rw [List.flatMap_eq_nil_iff.2 hpart] at hperm
    exact hperm.eq_nil

/-- Settings are accepted just if they obey all rules. -/
theorem validate_eq_ok_iff : s.validate cpuCount = .ok () ↔ ∀ r : Rule, r.Obeyed cpuCount s := by
  rw [← broken_every_eq_nil_iff, ← findings_eq_nil_iff, validate]
  split_ifs with h
  · exact iff_of_true rfl (List.isEmpty_iff.1 h)
  · refine iff_of_false ?_ (mt List.isEmpty_iff.2 h)
    intro he
    cases he

/-- Lines that say of each rule that settings break, and of no other, that they do, each once. -/
structure Reported (lines : List String) : Prop where
  once : ∀ r : Rule, ¬ r.Obeyed cpuCount s → lines.count r.line = 1
  never : ∀ r : Rule, r.Obeyed cpuCount s → r.line ∉ lines
  only : ∀ l ∈ lines, ∃ r : Rule, ¬ r.Obeyed cpuCount s ∧ l = r.line

theorem reported_of_perm {lines : List String}
    (h : lines.Perm ((s.broken cpuCount Rule.every).map Rule.line)) :
    s.Reported cpuCount lines := by
  have hmem (l : String) : l ∈ lines ↔ ∃ r : Rule, ¬ r.Obeyed cpuCount s ∧ r.line = l := by
    rw [h.mem_iff, List.mem_map]
    simp only [mem_broken, Rule.mem_every, true_and]
  have hnodup : lines.Nodup :=
    h.nodup_iff.2 (Rule.nodup_lines.sublist (List.filter_sublist.map Rule.line))
  refine ⟨fun r hr => ?_, fun r hr hl => ?_, fun l hl => ?_⟩
  · exact List.count_eq_one_of_mem hnodup ((hmem r.line).2 ⟨r, hr, rfl⟩)
  · obtain ⟨r', hr', hline⟩ := (hmem r.line).1 hl
    rw [List.inj_on_of_nodup_map Rule.nodup_lines r'.mem_every r.mem_every hline] at hr'
    exact hr' hr
  · obtain ⟨r, hr, hline⟩ := (hmem l).1 hl
    exact ⟨r, hr, hline.symm⟩

/-- What validation must come to. -/
structure Judged (result : Except ValidationError Unit) : Prop where
  /-- Just the settings that obey all rules are accepted. -/
  accepts : result = .ok () ↔ ∀ r : Rule, r.Obeyed cpuCount s
  /-- After its heading, the report on others has the lines for the rules that they break, in
  whatever order what was found is listed. -/
  reports : ∀ e, result = .error e → ∀ order, ∃ lines, s.Reported cpuCount lines ∧
    e.report order = "\n".intercalate ("Invalid configuration:" :: lines)

/-- **Validation is exact, and its report complete.** -/
theorem validate_judges : s.Judged cpuCount (s.validate cpuCount) where
  accepts := s.validate_eq_ok_iff cpuCount
  reports e he order := by
    have hfindings : e.findings = s.findings cpuCount := by
      rw [validate] at he
      split_ifs at he
      cases he
      rfl
    refine ⟨(e.findings.remarks order).map ValidationError.line, ?_, rfl⟩
    have hperm := (s.remarks_findings cpuCount order).map ValidationError.line
    rw [← hfindings, List.map_map] at hperm
    refine s.reported_of_perm cpuCount (hperm.trans (List.Perm.of_eq ?_))
    exact List.map_congr_left fun r _ => r.line_remark

end Settings
end Slab
