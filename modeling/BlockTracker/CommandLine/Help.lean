import BlockTracker.CommandLine.Arguments
import BlockTracker.Workload.Spec

/-!
# Help

What the program prints when it is asked for help: a page for the program as a whole and one for each command.  A
page says what its topic does and how it is called, and explains the words that may follow, in tables whose
explanations start in one column.
-/

namespace BlockTracker

namespace CommandLine

/-- The name that the program is called by. -/
def programName : String := "bkit-mem-harness"

/-- Words with their explanations, under a heading. -/
structure HelpTable where
  heading : String
  rows : List (String × String)

namespace HelpTable

/-- The width of the widest word. -/
def width (t : HelpTable) : Nat := (t.rows.map (·.1.length)).foldl max 0

/-- A word and its explanation, on one line. -/
def line (width : Nat) (row : String × String) : String :=
  "  " ++ row.1.pushn ' ' (width - row.1.length) ++ "  " ++ row.2 ++ "\n"

def text (t : HelpTable) : String := t.heading ++ ":\n" ++ String.join (t.rows.map (line t.width))

end HelpTable

/-- What a topic does, how it is called, and the words that may follow. -/
structure HelpPage where
  about : String
  usage : List String
  tables : List HelpTable

def HelpPage.text (page : HelpPage) : String :=
  page.about ++ "\n\nUsage: " ++ " ".intercalate (programName :: page.usage) ++ "\n"
    ++ String.join (page.tables.map fun t => "\n" ++ t.text)

namespace OptionName

/-- What stands for the value of an option. -/
def placeholder (name : OptionName) : String := name.word.map fun c => if c = '-' then '_' else c.toUpper

def about : OptionName → String
  | capacity => "Tracking table slots"
  | backend => "Initial backend (`platform` or `system`)"
  | allocs => "Total allocations across all threads"
  | releaseEvery => "Release one held block after every n-th allocation (0 = never)"
  | swapTo => "Swap every primitive to this backend after the workers finish"
  | threads => "Worker threads sharing the front end"
  | seed => "Root seed (decimal or 0x...)"
  | output => "Output file path (if omitted, prints to stdout)"

/-- The value of an option that is not given, as it would be written. -/
def default? : OptionName → Option String
  | capacity => WorkloadSpec.default.capacity.repr
  | backend => WorkloadSpec.default.backend.name
  | allocs => WorkloadSpec.default.allocs.repr
  | releaseEvery => WorkloadSpec.default.releaseEvery.repr
  | threads => WorkloadSpec.default.threads.repr
  | seed => "0xDEAD_BEEF"
  | swapTo | output => none

/-- The row of an option; it has no short form, whose place stays empty. -/
def row (name : OptionName) : String × String :=
  ("    --" ++ name.word ++ " <" ++ name.placeholder ++ ">",
    name.about ++ ((name.default?.map fun value => " [default: " ++ value ++ "]").getD ""))

end OptionName

namespace HelpTopic

/-- What a command does. -/
def about : HelpTopic → String
  | program => "Deterministic workloads against the bkit-mem allocation front end"
  | run => "Run an allocate/release/swap workload and emit a JSON report"
  | config => "Print the configuration the process-wide front end would use"
  | help => "Print this message or the help of the given subcommand(s)"

/-- The row of the option that asks for help. -/
def helpRow : String × String := ("-h, --help", "Print help")

def commands : HelpTable := ⟨"Commands", [("run", run.about), ("config", config.about), ("help", help.about)]⟩

def page (topic : HelpTopic) : HelpPage :=
  match topic with
  | program => ⟨topic.about, ["<COMMAND>"], [commands, ⟨"Options", [helpRow]⟩]⟩
  | run => ⟨topic.about, ["run", "[OPTIONS]"], [⟨"Options", OptionName.all.map (·.row) ++ [helpRow]⟩]⟩
  | config => ⟨topic.about, ["config"], [⟨"Options", [helpRow]⟩]⟩
  | help => ⟨topic.about, ["help", "[COMMAND]..."],
      [⟨"Arguments", [("[COMMAND]...", "Print help for the subcommand(s)")]⟩]⟩

end HelpTopic

end CommandLine

end BlockTracker
