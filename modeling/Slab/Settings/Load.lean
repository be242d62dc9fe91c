import Slab.Files
import Slab.Host
import Slab.Markup.Document
import Slab.Settings.Decode
import Slab.Settings.Validation
import Slab.Settings.Variables

/-!
# Loading settings

Settings come in layers, each laid over the ones before: the defaults, the base file, the file of
the deployment, and the variables of the environment. A user who names a file gets that file in
place of the two others.

* `World`: the files, the variables and the machine that a program sees;
* `LoadError`: why settings cannot be loaded;
* `Wording`: what the libraries say of that in words of their own, with `Wording.plain` for where
  there are no libraries;
* `Settings.load`, `Settings.loadFile`: loading with the usual files, and with a named one.
-/

namespace Slab

/-- What a program sees when it starts. -/
structure World where
  files : Files
  /-- The variables of the environment, in the order in which they are listed. -/
  environment : List (String × String)
  host : Host

/-- Why what was said does not become settings. -/
inductive ParseError
  /-- A file does not hold a dictionary. -/
  | unreadable
  /-- A value cannot be read. -/
  | misfit (m : Misfit)
  deriving DecidableEq, Repr

/-- Why settings cannot be loaded. -/
inductive LoadError
  | fileNotFound (path : String)
  | parsing (errors : List ParseError)
  | validation (e : ValidationError)
  deriving DecidableEq, Repr

/-- What the libraries that read and check settings say in words of their own. They may name the
files and variables of the world that they are used in. Their tables are listed in an order that
hangs on a number, which every process draws anew. -/
structure Wording where
  /-- What is said of what cannot be read. -/
  parsing : List ParseError → String
  /-- The order in which a process lists what was found wrong. -/
  listing : UInt64 → Listing
  /-- What a process says of what was found wrong. -/
  validation : UInt64 → Findings → String

/-- The reasons for what cannot be read, and what was found wrong in the order of the fields. -/
def Wording.plain : Wording where
  parsing errors := "\n".intercalate (errors.map fun
    | .unreadable => "not a dictionary of settings"
    | .misfit m => ".".intercalate m.path ++ ": " ++ m.reason.text)
  listing _ := .byKey
  validation _ d := "\n".intercalate ((d.remarks .byKey).map fun r => r.path ++ ": " ++ r.word)

namespace LoadError

/-- The beginning of the message for what cannot be parsed. -/
def parsingHeading : String := "Configuration parsing error:"

/-- What the user reads. -/
def message (t : Wording) (seed : UInt64) : LoadError → String
  | fileNotFound path => "Configuration file not found: " ++ path
  | parsing errors => parsingHeading ++ " " ++ t.parsing errors
  | validation e => e.report (t.listing seed)

end LoadError

namespace Settings

/-- The file that is read first. -/
def baseFile : String := "config/hotpool.yaml"

/-- The variable that names the deployment. -/
def deploymentVariable : String := "HOTPOOL_ENV"

/-- The deployment where no variable names one. -/
def defaultDeployment : String := "production"

/-- The file of a deployment. -/
def deploymentFile (deployment : String) : String := "config/" ++ deployment ++ ".yaml"

/-- The deployment that the variables name. -/
def deployment (environment : List (String × String)) : String :=
  match environment.find? fun v => v.1 == deploymentVariable with
  | some v => v.2
  | none => defaultDeployment

/-- What a file says, `none` if it cannot be read. What is no file says nothing. -/
def fileLayer (files : Files) (path : String) : Option Tree :=
  match files.content? path with
  | some content => content.bind Markup.Document.read?
  | none => some (.map [])

/-- Layers laid over a tree one after another, or one error for each that cannot be read. -/
def overlay (t : Tree) (layers : List (Option Tree)) : Except LoadError Tree :=
  let unreadable := layers.filter Option.isNone
  if unreadable.isEmpty then .ok ((layers.filterMap id).foldl Tree.merge t)
  else .error (.parsing (unreadable.map fun _ => .unreadable))

/-- The settings that layers over the defaults give, if they obey the rules. -/
def ofLayers (cpuCount : Nat) (layers : List (Option Tree)) : Except LoadError Settings :=
  match overlay (toTree {}) layers with
  | .error e => .error e
  | .ok t =>
    match ofTree t with
    | .error m => .error (.parsing [.misfit m])
    | .ok s =>
      match s.validate cpuCount with
      | .error e => .error (.validation e)
      | .ok _ => .ok s

/-- The base file and the file of the deployment. -/
def usualPaths (environment : List (String × String)) : List String :=
  [baseFile, deploymentFile (deployment environment)]

/-- The files that are read where the user names none: of the two usual ones those that exist. -/
def usualFiles (w : World) : List String := (usualPaths w.environment).filter w.files.has

/-- Loads the settings from the usual files and the environment. -/
def load (w : World) : Except LoadError Settings :=
  ofLayers w.host.cpuCount
    ((usualFiles w).map (fileLayer w.files) ++ [some (Variables.tree w.environment)])

/-- Loads the settings from a named file and the environment. -/
def loadFile (w : World) (path : String) : Except LoadError Settings :=
  if w.files.has path then
    ofLayers w.host.cpuCount [fileLayer w.files path, some (Variables.tree w.environment)]
  else .error (.fileNotFound path)

end Settings
end Slab
