import BlockTracker.CommandLine.Help
import BlockTracker.CommandLine.Seed
import BlockTracker.Files.Tree
import BlockTracker.Workload.Run

/-!
# Plans

What the command line is to do with its arguments and the environment.  A plan prints a text, saves one in a file,
or ends with an error; carrying it out is left to `Plan.deliver`, which does it on a `FileTree`, or to the program.
-/

namespace BlockTracker

namespace CommandLine

/-- Why a command failed. -/
inductive CommandError
  | backend (failure : Failure)
  | seed (e : NumeralError)
  | workload (e : WorkloadError)
deriving DecidableEq

def CommandError.dump : CommandError → String
  | backend failure => failure.dump
  | seed e => e.dump
  | workload e => e.dump

inductive Plan
  | refuse
  | abort
  | fail (e : CommandError)
  | print (text : String)
  | save (path text : String)

/-- The workload that options ask for.  The backend is looked at first, then the one to swap to, then the seed. -/
def specOf (o : RunOptions) : Except CommandError WorkloadSpec := do
  let base := WorkloadSpec.default
  let backend ← ((o.backend.map Kind.parse).getD (.ok base.backend)).mapError .backend
  let swapTo ← match o.swapTo with
    | none => .ok none
    | some name => ((Kind.parse name).map some).mapError .backend
  let seed ← match o.seed with
    | none => .ok base.seed
    | some raw => ((parseSeed raw).map UInt64.ofNat).mapError .seed
  return { capacity := o.capacity.getD base.capacity
           backend
           allocs := o.allocs.getD base.allocs
           releaseEvery := o.releaseEvery.getD base.releaseEvery
           swapTo
           threads := o.threads.getD base.threads
           seed }

def planRun (o : RunOptions) : Plan :=
  match specOf o with
  | .error e => .fail e
  | .ok spec =>
    match Workload.run spec with
    | .error .tableTooLarge => .abort
    | .error e => .fail (.workload e)
    | .ok report =>
      let text := report.toJson.pretty
      match o.output with
      | none => .print (text ++ "\n")
      | some path => .save path text

def plan (env : Environment) (args : List String) : Plan :=
  match parse args with
  | .error .usage => .refuse
  | .error (.help topic) => .print topic.page.text
  | .ok (.run o) => planRun o
  | .ok .config => .print ((Settings.ofEnvironment env).toJson.pretty ++ "\n")

/-- What a program leaves behind. -/
structure Finished where
  exit : Nat
  stdout : String
  stderr : String
deriving DecidableEq

namespace Finished

def failure (e : CommandError) : Finished := ⟨1, "", "Error: " ++ e.dump ++ "\n"⟩

def saved (path : String) : Finished := ⟨0, "", "Wrote workload report to " ++ path ++ "\n"⟩

end Finished

/-- The exit code of a program whose arguments are wrong. -/
def usageExit : Nat := 2

/-- The exit code of a program that was aborted. -/
def abortExit : Nat := 101

/-- Adds a text that was written to a device: it stands behind what the program printed and before what it says of
the file. -/
def Finished.shown (done : Finished) (text : String) : Option Device → Finished
  | some .output => { done with stdout := done.stdout ++ text }
  | some .errors => { done with stderr := text ++ done.stderr }
  | _ => done

/-- Carries a plan out on a tree of files, in the directory `here`. -/
def Plan.deliver (tree : FileTree) (here : List String) : Plan → Finished × FileTree
  | refuse => (⟨usageExit, "", ""⟩, tree)
  | abort => (⟨abortExit, "", ""⟩, tree)
  | fail e => (.failure e, tree)
  | print text => (⟨0, text, ""⟩, tree)
  | save path text =>
    match tree.save here (.parse path) text with
    | .ok tree => ((Finished.saved path).shown text (tree.device? here (.parse path)), tree)
    | .error fault => (.failure (.workload (.file fault)), tree)

end CommandLine

end BlockTracker
