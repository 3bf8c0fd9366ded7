import Recital.Policy.Config
import Recital.Settings.Expansion
import Recital.Settings.Shape

/-!
# Loading a configuration

A configuration is read from a settings file or from the text of one.  Settings that say nothing
give the standard configuration, and one that makes no sense is refused.
-/

namespace Recital.Settings

/-- Refuses a configuration that makes no sense. -/
def check (c : Config) : Except Error Config :=
  match c.defect? with
  | some d => .error (.invalid d.key d.reason)
  | none => .ok c

/-- The configuration that expanded settings describe. -/
def ofYaml (path : Path) (y : Yaml) : Except Error Config :=
  match (Shape.config.toJson? y).bind Config.ofJson? with
  | some c => check c
  | none => .error (.malformed path)

/-- Loads the configuration of a settings file.  The directory of the file is what relative paths
are joined to, its own path among them. -/
def load (tree : FileTree) (cwd : Location) (env : Table String) (path : Path) :
    Except Error Config := do
  let source : Source := { tree, cwd, env, base := (path.parent?).getD ⟨""⟩ }
  ofYaml path (← ((expandFile source nestingBound path).run.run []).1)

/-- The name of settings that stand in no file. -/
def inlinePath : Path := ⟨"<inline>"⟩

/-- Reads a configuration from the text of settings. -/
def read (tree : FileTree) (cwd : Location) (env : Table String) (text : String) :
    Except Error Config := do
  let source : Source := { tree, cwd, env, base := ⟨"."⟩ }
  let includes := includeFrom (expandFile source nestingBound) source.base inlinePath
  ofYaml inlinePath (← ((expandText includes env inlinePath text).run.run []).1)

end Recital.Settings
