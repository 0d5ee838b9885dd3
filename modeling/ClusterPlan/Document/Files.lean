import ClusterPlan.Document.Platform
import ClusterPlan.Json.Parser

/-!
Loading documents from files. How a file is read is up to the caller. Values in a file may nest 127
deep, counted from the top of the file.
-/

namespace ClusterPlan.Document

def parent (path : String) : String :=
  let inside := (path.toList.reverse.dropWhile (· = '/')).dropWhile (· ≠ '/')
  let above := (inside.dropWhile (· = '/')).reverse
  if above = [] ∧ inside ≠ [] then "/" else String.ofList above

/-- A path seen from a directory; absolute paths stay. -/
def joinPath (directory path : String) : String :=
  if path.startsWith "/" ∨ directory = "" then path
  else if directory.endsWith "/" then directory ++ path
  else directory ++ "/" ++ path

variable {m : Type → Type} [Monad m]

def load (read : String → m (Option String)) (decode : Json → Option α) (path : String) :
    ExceptT Error m α := do
  match ← read path with
  | none => throw .unreadableFile
  | some text =>
      match (Json.parse? text).bind decode with
      | none => throw .malformedDocument
      | some a => return a

def loadRules (read : String → m (Option String)) (path : String) :
    ExceptT Error m (List Rule) := do
  let entries ← load read readQuotas path
  ofExcept (Rule.ofMap entries)

/-- Reads a configuration and the file of quota rules that it names, if quotas are enabled. Rules
from the file come after those of the configuration itself. -/
def loadConfig (read : String → m (Option String)) (path : String) : ExceptT Error m Config := do
  let entry ← load read (ConfigEntry.read 123) path
  match entry.quotas with
  | some ⟨true, rules, some file⟩ =>
      let fileRules ← loadRules read (joinPath (parent path) file)
      let config ← ofExcept { entry with quotas := some ⟨true, rules, none⟩ }.toConfig
      return { config with rules := config.rules ++ fileRules }
  | _ => ofExcept entry.toConfig

/-- Reads a platform; the second part of the answer is its time. -/
def loadPlatform (read : String → m (Option String)) (config : Config) (path : String) :
    ExceptT Error m (Store × Option Int) := do
  let entry ← load read (PlatformEntry.read 123) path
  let store ← ofExcept (entry.toStore config)
  return (store, entry.now)

end ClusterPlan.Document
