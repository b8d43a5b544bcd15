import BlockTracker.CommandLine.Plan

/-!
# The program

Runs a workload and reports on it, or shows the settings that the environment asks for.
-/

namespace BlockTracker

namespace CommandLine

/-- The number in the text of an error of the operating system. -/
def codeOf (e : IO.Error) : Option String :=
  ((e.toString.splitOn "(error code: ")[1]?).map fun rest => (rest.takeWhile Char.isDigit).toString

/-- The fault behind an error of the operating system, where it is one that a report can meet. -/
def faultOf (e : IO.Error) : Option FileFault :=
  [FileFault.notFound, .alreadyExists, .notADirectory, .isADirectory, .full, .nameTooLong].find? fun f =>
    f.code?.any fun code => codeOf e = some code.repr

/-- Makes a directory, and those above it where they are missing. -/
def makeDirectory (path : String) : IO Unit := do
  try
    IO.FS.createDir path
  catch e =>
    match faultOf e with
    | some .notFound | some .alreadyExists => IO.FS.createDirAll path
    | _ => throw e

/-- Writes a file after making the directories above it. -/
def saveFile (path text : String) : IO Unit := do
  let parent := (FilePath.parse path).parent
  unless parent.names.isEmpty do
    makeDirectory parent.text
  IO.FS.withFile path .write fun h => do
    h.putStr text
    h.flush

/-- Carries a plan out and returns the exit code. -/
def Plan.carryOut (plan : Plan) : IO UInt32 := do
  match plan with
  | refuse =>
    IO.eprint HelpTopic.program.page.text
    return usageExit.toUInt32
  | abort =>
    IO.eprintln WorkloadError.tableTooLarge.message
    return abortExit.toUInt32
  | fail e =>
    let done := Finished.failure e
    IO.eprint done.stderr
    return done.exit.toUInt32
  | print text =>
    IO.print text
    return 0
  | save path text =>
    try
      saveFile path text
      IO.eprint (Finished.saved path).stderr
      return 0
    catch e =>
      match faultOf e with
      | some fault => IO.eprint (Finished.failure (.workload (.file fault))).stderr
      | none => IO.eprintln s!"Error: {e}"
      return 1

/-- The environment of the program. -/
def readEnvironment : IO Environment := do
  let capacity ← IO.getEnv capacityVariable
  let backend ← IO.getEnv backendVariable
  return ⟨capacity.map (·.toUTF8), backend.map (·.toUTF8)⟩

end CommandLine

end BlockTracker

def main (args : List String) : IO UInt32 := do
  let env ← BlockTracker.CommandLine.readEnvironment
  (BlockTracker.CommandLine.plan env args).carryOut
