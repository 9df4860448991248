import AccountApi.Lib.FileTree
import AccountApi.Lib.JsString
import AccountApi.Lib.Regex
import AccountApi.Lib.Registry
import Mathlib.Data.List.Sort
import Mathlib.Data.String.Basic

/-!
# The topic map

`scripts/generate-aggregate-module-map.ts`: the aggregate classes under `src/contexts` with
the module that each of them is declared in. Paths are relative to `src/contexts`. The class
names have letters, digits and `_` only, for which `<` of JavaScript is the order of strings.

* `Declares`: a module declares a class, said of the paths of the tree and of the text of the
  files, without an order.
-/

namespace AccountApi.TopicMap

open FileTree Regex JsString

/-- `EXPORTED_AGGREGATE`: `/export\s+class\s+(\w+Aggregate)\b/g`. -/
def exportedAggregate : Pattern :=
  .seq (.lit "export".toList) (.seq (.plus isWhiteSpace) (.seq (.lit "class".toList) (.seq (.plus isWhiteSpace)
    (.seq (.capture (.seq (.plus isWordChar) (.lit "Aggregate".toList))) .boundary))))

/-- `match[1]` of each match in the source. -/
def classNames (source : String) : List String :=
  (matchAll exportedAggregate 0 [] source.toList).map fun captured => String.ofList (captured.getD [])

structure AggregateMapping where
  className : String
  module : String
  deriving DecidableEq, Repr

inductive TopicMapError where
  | ambiguous (className existing moduleName : String)
  /-- `readFileSync` throws. -/
  | unreadable (filePath : Path)
  deriving DecidableEq

def TopicMapError.message : TopicMapError → String
  | ambiguous className existing moduleName =>
    "Ambiguous aggregate '" ++ className ++ "': declared in both '" ++ existing ++ "' and '" ++ moduleName ++
      "'. Aggregate class names must be unique."
  | unreadable filePath => "ENOENT: no such file or directory, open '" ++ "/".intercalate filePath ++ "'"

/-- `name.endsWith('.aggregate.ts') && !name.endsWith('.spec.ts')`. -/
def isAggregateFile (name : String) : Bool :=
  ".aggregate.ts".toList.isSuffixOf name.toList && !".spec.ts".toList.isSuffixOf name.toList

mutual

/-- What an entry of the directory adds to `files`; the call for a directory is on what is at its path. -/
def collectEntry (dir : Path) (name : String) : Node → List Path
  | .directory entries => collectEntries (dir ++ [name]) entries
  | .file _ => if isAggregateFile name then [dir ++ [name]] else []
  | .link _ | .other => []

def collectEntries (dir : Path) : List (String × Node) → List Path
  | [] => []
  | (name, node) :: entries => collectEntry dir name node ++ collectEntries dir entries

end

def collectAggregateFiles (root : Node) (dir : Path) : List Path :=
  match (root.lookup dir).bind (·.entries) with
  | some entries => collectEntries dir entries
  | none => []

def aggregatesDir (moduleName : String) : Path := [moduleName, "domain", "aggregates"]

/-- One round of the loop over the matches. -/
def registerClass (byClassName : List (String × String)) (moduleName className : String) :
    Except TopicMapError (List (String × String)) :=
  match Registry.get byClassName className with
  | some existing =>
    if existing ≠ "" ∧ existing ≠ moduleName then throw (.ambiguous className existing moduleName)
    else return Registry.set byClassName className moduleName
  | none => return Registry.set byClassName className moduleName

def registerAggregateFile (root : Node) (byClassName : List (String × String)) (moduleName : String)
    (filePath : Path) : Except TopicMapError (List (String × String)) :=
  match readFileSync root filePath with
  | some source =>
    (classNames source).foldlM (fun m className => registerClass m moduleName className) byClassName
  | none => throw (.unreadable filePath)

/-- One round of the loop over the modules. -/
def registerModule (root : Node) (byClassName : List (String × String)) (module : Dirent) :
    Except TopicMapError (List (String × String)) :=
  if module.isDirectory then
    (collectAggregateFiles root (aggregatesDir module.name)).foldlM
      (fun m filePath => registerAggregateFile root m module.name filePath) byClassName
  else return byClassName

/-- A stable sort: an entry is moved to the front of another one only where the comparison function
puts it there. -/
def sortMappings (mappings : List AggregateMapping) : List AggregateMapping :=
  mappings.insertionSort fun a b => ¬ b.className < a.className

def collectMappings (root : Node) : Except TopicMapError (List AggregateMapping) :=
  match readdirSync root [] with
  | none => return []
  | some contextEntries => do
    let byClassName ← contextEntries.foldlM (registerModule root) []
    return sortMappings (byClassName.map fun (className, module) => ⟨className, module⟩)

def render (mappings : List AggregateMapping) : String :=
  let entries := "\n".intercalate (mappings.map fun m => "  " ++ m.className ++ ": '" ++ m.module ++ "',")
  "/**\n" ++
  " * AUTO-GENERATED FILE — DO NOT EDIT BY HAND.\n" ++
  " *\n" ++
  " * Maps each aggregate root type to its bounded-context module (the Kafka topic\n" ++
  " * suffix `$\x7bprefix\x7d.$\x7bmodule\x7d`). Derived by scanning\n" ++
  " * `src/contexts/<module>/domain/aggregates/*.aggregate.ts`: the owning\n" ++
  " * `<module>` folder is the topic, and every exported `*Aggregate` class is a key.\n" ++
  " *\n" ++
  " * Regenerate with `pnpm gen:topics`. The pre-commit hook and CI\n" ++
  " * (`pnpm gen:topics:check`) keep this file in sync, so creating a new aggregate\n" ++
  " * needs no manual edit here.\n" ++
  " *\n" ++
  " * @see scripts/generate-aggregate-module-map.ts\n" ++
  " */\n" ++
  "export const AGGREGATE_MODULE_MAP: Readonly<Record<string, string>> = \x7b" ++
  (if entries = "" then "" else "\n" ++ entries ++ "\n") ++ "\x7d;\n"

/-- How the script ends when nothing is thrown, with what it prints. -/
inductive Outcome where
  /-- `process.exit(1)`. -/
  | outOfDate (message : String)
  | upToDate (message : String)
  | written (content message : String)
  deriving DecidableEq

def outRelative : String := "src/core/messaging/domain/topics/aggregate-module.map.generated.ts"

/-- `main`, with the content of the generated file when there is one. -/
def main (root : Node) (output : Option String) (argv : List String) : Except TopicMapError Outcome := do
  let mappings ← collectMappings root
  let content := render mappings
  if "--check" ∈ argv then
    let current := output.getD ""
    if current ≠ content then
      return .outOfDate ("✗ " ++ outRelative ++ " is out of date.\n" ++
        "  Run `pnpm gen:topics` and commit the result.")
    return .upToDate ("✓ " ++ outRelative ++ " is up to date (" ++ toString mappings.length ++ " aggregates).")
  return .written content ("Wrote " ++ outRelative ++ " (" ++ toString mappings.length ++ " aggregates).")

/-! ## What the map is about -/

/-- The text exports the class: `EXPORTED_AGGREGATE` matches somewhere, with the name in its group. -/
def Exports (source className : String) : Prop :=
  ∃ before ws₁ ws₂ stem after,
    source.toList = before ++ "export".toList ++ ws₁ ++ "class".toList ++ ws₂ ++ className.toList ++ after ∧
    (ws₁ ≠ [] ∧ ∀ c ∈ ws₁, isWhiteSpace c = true) ∧ (ws₂ ≠ [] ∧ ∀ c ∈ ws₂, isWhiteSpace c = true) ∧
    className.toList = stem ++ "Aggregate".toList ∧ (stem ≠ [] ∧ ∀ c ∈ stem, isWordChar c = true) ∧
    after.head?.any isWordChar = false

/-- A file that the module has anywhere under its `domain/aggregates` exports the class. -/
def Declares (root : Node) (module className : String) : Prop :=
  root.shapeAt [module] = some .directory ∧
  ∃ dirs name content,
    (∀ q, q ≠ [] → q <+: dirs → root.shapeAt (aggregatesDir module ++ q) = some .directory) ∧
    root.shapeAt (aggregatesDir module ++ dirs ++ [name]) = some (.file content) ∧
    isAggregateFile name = true ∧ Exports content className

end AccountApi.TopicMap
