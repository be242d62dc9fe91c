import Mathlib.Data.List.Basic
import Slab.Settings.Load

/-!
# The file that a user names

What becomes of the settings when a user names a file. A path that names nothing is reported as such
and with its name, and a file is read itself, whatever else there is.

* `FileTree.entry_slash`: a path that ends in a slash names a directory or nothing;
* `Settings.ofLayers_ne_fileNotFound`: layers that have been found are never reported as missing;
* `Settings.loadFile_reads_named`: what loading comes to, by what the path names.

A directory is not refused: it says what a file of its name further up says, or nothing, so that the
settings are those of the environment alone (`loadFile_directory`).
-/

namespace Slab

/-! ### Paths that end in a slash -/

namespace Text

theorem pieces_concat (c : Char) (s : List Char) : pieces c (s ++ [c]) = pieces c s ++ [[]] := by
  induction s with
  | nil => simp [pieces]
  | cons d s ih =>
    rw [List.cons_append, pieces, pieces, ih]
    split_ifs with hd
    · rfl
    · cases hs : pieces c s with
      | nil => exact absurd hs (pieces_ne_nil c s)
      | cons p ps => rfl

end Text

namespace FileTree

theorem parts_slash (path : String) : parts (path ++ "/") = parts path ++ [""] := by
  have h : (path ++ "/").toList = path.toList ++ ['/'] := String.toList_append
  rw [parts, parts, h, Text.pieces_concat, List.map_append]
  rfl

/-- Parts that end in an empty one lead to no file. -/
theorem walk_ne_file (above : List FileTree) (t : FileTree) (ps : List String) (text : String) :
    walk above t (ps ++ [""]) ≠ some (.file text) := by
  induction ps generalizing above t with
  | nil => cases t <;> simp [walk]
  | cons p ps ih =>
    -- Wherever the first part leads, the others end as before.
    cases t with
    | file text' => simp [walk]
    | directory entries =>
      unfold walk
      rw [List.cons_append]
      dsimp only
      split_ifs
      · exact ih _ _
      · cases above with
        | nil => exact ih _ _
        | cons u above => exact ih _ _
      · cases child? p entries with
        | none => simp
        | some u => exact ih _ _

/-- A path that is resolved leads along its parts. -/
theorem walk_of_resolve? {t u : FileTree} {path : String} (h : t.resolve? path = some u) :
    ∃ above start, walk above start (parts path) = some u := by
  unfold resolve? at h
  split at h
  · cases h
  · exact ⟨_, _, h⟩
  · exact ⟨_, _, h⟩

theorem entry_ne_special (t : FileTree) (path : String) :
    t.files.entry path ≠ some .special := by
  intro h
  obtain ⟨u, -, he⟩ := Option.map_eq_some_iff.1 h
  cases u <;> cases he

theorem entry_empty (t : FileTree) : t.files.entry "" = none := rfl

/-- A path that ends in a slash names a directory or nothing. -/
theorem entry_slash (t : FileTree) (path : String) (content : Option String) :
    t.files.entry (path ++ "/") ≠ some (.file content) := by
  intro h
  obtain ⟨u, hu, he⟩ := Option.map_eq_some_iff.1 h
  obtain ⟨above, start, hwalk⟩ := walk_of_resolve? hu
  rw [parts_slash] at hwalk
  cases u with
  | file text' => exact walk_ne_file _ _ _ _ hwalk
  | directory entries => cases he

end FileTree

/-! ### Loading a named file -/

namespace Settings

variable {w : World} {path : String}

/-- Layers that have been found are never reported as missing. -/
theorem ofLayers_ne_fileNotFound (cpuCount : ℕ) (layers : List (Option Tree)) (p : String) :
    ofLayers cpuCount layers ≠ .error (.fileNotFound p) := by
  unfold ofLayers overlay
  dsimp only
  split_ifs
  · dsimp only
    split
    · simp
    · split <;> simp
  · simp

theorem loadFile_of_none (h : w.files.entry path = none) :
    loadFile w path = .error (.fileNotFound path) := by
  simp [loadFile, Files.has, h]

theorem loadFile_of_some {e : Entry} (h : w.files.entry path = some e) :
    loadFile w path = ofLayers w.host.cpuCount
      [fileLayer w.files path, some (Variables.tree w.environment)] := by
  simp [loadFile, Files.has, h]

/-- A path is reported as missing just where it names nothing. -/
theorem loadFile_eq_fileNotFound_iff {p : String} :
    loadFile w path = .error (.fileNotFound p) ↔ w.files.entry path = none ∧ p = path := by
  cases he : w.files.entry path with
  | none => simp [loadFile_of_none he, eq_comm]
  | some e => simp [loadFile_of_some he, ofLayers_ne_fileNotFound]

/-- **What loading comes to, by what the path names.** Nothing of that name is reported with the
path, as the empty path and a path with a slash behind a file's name are; of a file just its text is
laid over the defaults, and a file without a text is an error; and a directory, like all else that
is no file, says what a file of its name further up says, or nothing. -/
theorem loadFile_reads_named (w : World) (path : String) :
    (∀ p, loadFile w path = .error (.fileNotFound p) ↔ w.files.entry path = none ∧ p = path) ∧
    (∀ text, w.files.entry path = some (.file (some text)) →
      loadFile w path = ofLayers w.host.cpuCount
        [Markup.Document.read? text, some (Variables.tree w.environment)]) ∧
    (w.files.entry path = some (.file none) →
      loadFile w path = .error (.parsing [.unreadable])) ∧
    (w.files.entry path = some .directory ∨ w.files.entry path = some .special →
      loadFile w path = ofLayers w.host.cpuCount
        [((w.files.around path).map (Option.bind · Markup.Document.read?)).getD (some (.map [])),
          some (Variables.tree w.environment)]) ∧
    ∀ t : FileTree, w.files = t.files →
      loadFile w "" = .error (.fileNotFound "") ∧
      (w.files.entry (path ++ "/") = some .directory ∨
        loadFile w (path ++ "/") = .error (.fileNotFound (path ++ "/"))) := by
  refine ⟨fun p => loadFile_eq_fileNotFound_iff, fun text he => ?_, fun he => ?_, fun he => ?_,
    fun t ht => ?_⟩
  · rw [loadFile_of_some he, fileLayer, Files.content?, he]
    rfl
  · rw [loadFile_of_some he, fileLayer, Files.content?, he]
    rfl
  · rcases he with he | he <;> rw [loadFile_of_some he, fileLayer, Files.content?, he] <;>
      cases w.files.around path <;> rfl
  · refine ⟨loadFile_of_none (by rw [ht, FileTree.entry_empty]), ?_⟩
    cases he : w.files.entry (path ++ "/") with
    | none => exact .inr (loadFile_of_none he)
    | some e =>
      cases e with
      | file content => exact absurd (ht ▸ he) (t.entry_slash path content)
      | directory => exact .inl rfl
      | special => exact absurd (ht ▸ he) (t.entry_ne_special _)

/-- A world with a file and a directory that a user may name. -/
def named : World where
  files := (FileTree.directory
    [("own.yaml", .file "pool: {capacity: 5}"), ("conf", .directory [])]).files
  environment := [("HOTPOOL_WORKERS__THREADS", "3")]
  host := Host.reference

theorem loadFile_reads_named_files :
    (named.files.entry "own.yaml" = some (.file (some "pool: {capacity: 5}")) ∧
      loadFile named "own.yaml" = ofLayers 1
        [Markup.Document.read? "pool: {capacity: 5}", some (Variables.tree named.environment)]) ∧
    (named.files.entry "conf" = some .directory ∧
      loadFile named "conf" = ofLayers 1
        [some (.map []), some (Variables.tree named.environment)]) ∧
    loadFile named "own.yaml/" = .error (.fileNotFound "own.yaml/") := by
  have hfile : named.files.entry "own.yaml" = some (.file (some "pool: {capacity: 5}")) := by
    decide +kernel
  have hdirectory : named.files.entry "conf" = some .directory := by decide +kernel
  have hslash : named.files.entry ("own.yaml" ++ "/") ≠ some .directory := by decide +kernel
  exact ⟨⟨hfile, (loadFile_reads_named named "own.yaml").2.1 _ hfile⟩,
    ⟨hdirectory, (loadFile_reads_named named "conf").2.2.2.1 (.inl hdirectory)⟩,
    ((loadFile_reads_named named "own.yaml").2.2.2.2 _ rfl).2.resolve_left hslash⟩

/-- A world in which a directory has the name of a file further up. -/
def shadowed : World :=
  { named with
    files := Files.listed [("conf", some .directory, some (some "pool: {capacity: 7}"))] }

/-- **A directory is not refused.** With it as the named file the settings are those of the
environment alone, or those of a file of the same name somewhere else. -/
theorem loadFile_directory :
    named.files.entry "conf" = some .directory ∧
    loadFile named "conf" = .ok { workers := { threads := 3 } } ∧
    shadowed.files.entry "conf" = some .directory ∧
    loadFile shadowed "conf" = .ok { pool := { capacity := 7 }, workers := { threads := 3 } } := by
  decide +kernel

end Settings
end Slab
