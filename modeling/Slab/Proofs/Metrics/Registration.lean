import Mathlib.Data.List.Sort
import Slab.Metrics.Registry
import Slab.Proofs.Dict

/-!
# Registered families

Families of different names can all be registered, and whatever the order in which this is done,
they are written in the order of their names.

* `register_eq`: families of different names, registered one after the other;
* `register_of_perm`: they end up in the order of their names;
* `Recorder.gather_eq`: **the families of a recorder are registered without an error**, and the
  text of all of them is the exposition.
-/

namespace Slab.Metrics

variable {d : Registry} {fs gs : List Family}

/-- A family under its name. -/
def Family.entry (f : Family) : String × Family := (f.name, f)

theorem declare_eq_ok {f : Family} (hname : isName f.name.toList = true)
    (hhelp : f.help.isEmpty = false) (horder : f.values.inOrder = true) : f.declare = .ok f := by
  simp [Family.declare, hname, hhelp, horder]

theorem mapM_declare (h : ∀ f ∈ fs, f.declare = .ok f) : fs.mapM Family.declare = .ok fs := by
  induction fs with
  | nil => rfl
  | cons f fs ih =>
    rw [List.forall_mem_cons] at h
    rw [List.mapM_cons, h.1, ih h.2]
    rfl

/-- Families whose names are new and different are all registered. -/
theorem register_eq (hd : d.keys.Pairwise (· < ·)) (h : (fs.map Family.name ++ d.keys).Nodup) :
    ∃ d' : Registry, fs.foldlM Registry.register d = .ok d' ∧ d'.keys.Pairwise (· < ·) ∧
      d'.Perm (fs.map Family.entry ++ d) := by
  induction fs generalizing d with
  | nil => exact ⟨d, rfl, hd, List.Perm.refl _⟩
  | cons f fs ih =>
    rw [List.map_cons, List.cons_append, List.nodup_cons, List.mem_append, not_or] at h
    obtain ⟨⟨hfs, hnew⟩, hnodup⟩ := h
    have hstep : Registry.register d f = .ok (d.insert f.name f) := by
      rw [Registry.register, Dict.find?_eq_none_iff.2 hnew]
      rfl
    have hperm : (d.insert f.name f).Perm (f.entry :: d) := Dict.perm_insert hnew f
    have hkeys : (fs.map Family.name ++ (d.insert f.name f).keys).Nodup := by
      refine ((List.Perm.append_left _ (Dict.keys_insert hnew f)).nodup_iff).2 ?_
      exact List.nodup_middle.2 (List.nodup_cons.2 ⟨by simp [hfs, hnew], hnodup⟩)
    obtain ⟨d', hfold, hsorted, hperm'⟩ := ih (Dict.ascending_insert hd f.name f) hkeys
    refine ⟨d', ?_, hsorted, ?_⟩
    · rw [List.foldlM_cons, hstep]
      exact hfold
    · exact hperm'.trans ((List.Perm.append_left _ hperm).trans List.perm_middle)

/-- Families are registered in the order of their names. -/
theorem register_of_perm (h : fs.Perm gs) (hsorted : (gs.map Family.name).Pairwise (· < ·)) :
    fs.foldlM Registry.register ([] : Registry) = .ok (gs.map Family.entry) := by
  have hnodup : (fs.map Family.name ++ Dict.keys ([] : Registry)).Nodup := by
    rw [Dict.keys_nil, List.append_nil]
    exact ((h.map Family.name).nodup_iff).2 (hsorted.imp fun hlt => String.ne_of_lt hlt)
  obtain ⟨d, hfold, hd, hperm⟩ := register_eq (d := []) List.Pairwise.nil hnodup
  rw [List.append_nil] at hperm
  have hd' : d.Pairwise fun a b => a.1 < b.1 := List.pairwise_map.1 hd
  have hgs : (gs.map Family.entry).Pairwise fun a b => a.1 < b.1 := by
    rw [List.pairwise_map] at hsorted ⊢
    exact hsorted
  have heq : d = gs.map Family.entry :=
    List.Perm.eq_of_pairwise (fun a b _ _ hab hba => absurd hba (String.lt_asymm hab)) hd' hgs
      (hperm.trans (h.map _))
  rw [hfold, heq]

/-! ### The families of a recorder -/

/-- Every metric has its place. -/
theorem mem_all (m : Metric) : m ∈ Metric.all := by
  rcases m with (_ | _ | _) | (_ | _ | _ | _) | _ <;> decide

theorem declared_perm : Metric.declared.Perm Metric.all := by decide

theorem ascending_names : (Metric.all.map Metric.name).Pairwise (· < ·) := by decide

theorem isName_name : ∀ m ∈ Metric.all, isName m.name.toList = true := by decide

theorem help_ne_empty : ∀ m ∈ Metric.all, m.help.isEmpty = false := by decide

namespace Recorder

variable {r : Recorder}

theorem names_families (r : Recorder) : r.families.map Family.name = Metric.all.map Metric.name :=
  rfl

theorem declare_family (h : isAscending (r.cycles.covered.map Prod.fst) = true) (m : Metric) :
    (r.family m).declare = .ok (r.family m) := by
  have horder : (r.values m).inOrder = true := by
    cases m with
    | gauge g => rfl
    | total c => rfl
    | cycles => exact h
  exact declare_eq_ok (isName_name m (mem_all m)) (help_ne_empty m (mem_all m)) horder

/-- **The text of a recorder whose bounds ascend can be had, and is its exposition.** -/
theorem gather_eq (h : isAscending (r.cycles.covered.map Prod.fst) = true) :
    r.gather = .ok r.exposition := by
  have hdeclare : (Metric.declared.map r.family).mapM Family.declare =
      .ok (Metric.declared.map r.family) := by
    refine mapM_declare fun f hf => ?_
    obtain ⟨m, -, rfl⟩ := List.mem_map.1 hf
    exact declare_family h m
  have hperm : (Metric.declared.map r.family).Perm r.families := declared_perm.map r.family
  have hregister := register_of_perm hperm (names_families r ▸ ascending_names)
  have hregistry : r.registry = .ok (r.families.map Family.entry) := by
    rw [registry, hdeclare]
    exact hregister
  have hfamilies : (r.families.map Family.entry).map Prod.snd = r.families := by
    rw [List.map_map]
    exact List.map_id r.families
  rw [gather, hregistry, exposition, ← hfamilies]
  rfl

end Recorder
end Slab.Metrics
