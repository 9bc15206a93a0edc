import StubGen.Command.Session

/-!
# The commands that make and remove the package
-/

namespace StubGen.Command

/-- The lines of a text up to a width. -/
def padded (width : Nat) (text : String) : String :=
  text ++ String.ofList (List.replicate (width - text.length) ' ')

/-! ## Generating -/

/-- A batch in a report. -/
def batchValue (report : BatchReport) : Json :=
  .obj [("kind", .str report.root.noun), ("generated", .int report.generated.length),
    ("skipped", .int report.skipped.length),
    ("failed", .arr (report.failures.map fun failure => .str failure.message))]

/-- A batch as a human reads it: a line with the counts, and one for each failure. -/
def batchLines (style : Style) (report : BatchReport) : List String :=
  ("  " ++ padded 10 report.root.noun ++ " " ++ toString report.generated.length ++
      " generated, " ++ toString report.skipped.length ++ " skipped") ::
    report.failures.map fun failure => "    " ++ style.failure failure.message

/-- What was dropped, as a human reads it. -/
def droppedLines (style : Style) (dropped : List String) : List String :=
  if dropped.isEmpty then []
  else
    [style.warning (toString dropped.length ++
      " specs dropped for unresolvable schema references: " ++ Text.join ", " dropped)]

/-- The report on a run. -/
def generationReport (g : Generation) : Report :=
  { value := .obj
      [("output_dir", .str g.root), ("fetched", .int g.fetched), ("selected", .int g.selected),
       ("generated", .int g.generated), ("dropped", .arr (g.dropped.map .str)),
       ("batches", .arr (g.reports.map batchValue))]
    description := fun style =>
      Text.join "\n" <|
        style.success ("Generated " ++ style.cyan (toString g.generated) ++ " of " ++
            toString g.selected ++ " specs into " ++ style.bold g.root) ::
          g.reports.flatMap (batchLines style) ++ droppedLines style g.dropped }

/-- Generates the package from what the service has. -/
def generate (environment : Environment) (config : Config) (query : Query) : Action ExitCode := do
  let client ←
    Action.within "cannot generate the client library" (Action.ofExcept (Client.ofConfig config))
  let root := config.packageRoot (← get).disk
  let g := Generator.ofRenderer (environment.renderer config) root
  let result ← Action.within "failed to generate the client library" do
    let fetched ← Action.online (client.fetch query)
    Action.onDisk (g.generate query client.baseUrl client.description fetched)
  Action.print environment (generationReport result)
  return .success

/-! ## Clearing -/

/-- The report on what was removed from a directory. -/
def clearReport (directory : String) (removed : Nat) : Report :=
  { value := .obj [("output_dir", .str directory), ("removed", .int removed)]
    description := fun style =>
      if removed = 0 then "Nothing to clear in " ++ style.bold directory
      else
        style.success ("Cleared generated library in " ++ style.bold directory ++ " (" ++
          toString removed ++ " entries)") }

/-- Removes the package. -/
def clear (environment : Environment) (config : Config) : Action ExitCode := do
  let root := config.packageRoot (← get).disk
  let removed ← Action.within ("failed to clear " ++ config.outputDirectory)
    (Action.onDisk (Generator.onPackage (Generator.clear root)))
  Action.print environment (clearReport config.outputDirectory removed)
  return .success

end StubGen.Command
