import BlockTracker.Settings
import BlockTracker.Text.Numeral

/-!
# Arguments

The command line has two commands.  `config` has no options; `run` takes each of its options at most once, as
`--name value` or `--name=value`.  A value that stands by itself may not look like an option, and `--` ends the
options.  Arguments are read from left to right, and the first that is wrong or asks for help decides.
-/

namespace BlockTracker

namespace CommandLine

/-- The options of `run`, as they were given. -/
structure RunOptions where
  capacity : Option Nat
  backend : Option String
  allocs : Option Nat
  releaseEvery : Option Nat
  swapTo : Option String
  threads : Option Nat
  seed : Option String
  output : Option String

namespace RunOptions

def none : RunOptions := ⟨.none, .none, .none, .none, .none, .none, .none, .none⟩

end RunOptions

inductive Command
  | run (options : RunOptions)
  | config

/-- What the program explains: itself, or one of its commands. -/
inductive HelpTopic
  | program
  | run
  | config
  | help
deriving DecidableEq, Repr

/-- The topic that a word names. -/
def HelpTopic.parse : String → Option HelpTopic
  | "run" => some run
  | "config" => some config
  | "help" => some help
  | _ => none

/-- Why there is no command to carry out: the arguments are wrong, or they ask for help. -/
inductive NoCommand
  | usage
  | help (topic : HelpTopic)
deriving DecidableEq, Repr

inductive OptionName
  | capacity
  | backend
  | allocs
  | releaseEvery
  | swapTo
  | threads
  | seed
  | output
deriving DecidableEq, Repr

namespace OptionName

def all : List OptionName := [capacity, backend, allocs, releaseEvery, swapTo, threads, seed, output]

/-- The name of an option behind its two dashes. -/
def word : OptionName → String
  | capacity => "capacity"
  | backend => "backend"
  | allocs => "allocs"
  | releaseEvery => "release-every"
  | swapTo => "swap-to"
  | threads => "threads"
  | seed => "seed"
  | output => "output"

def parse (s : String) : Option OptionName := all.find? (·.word = s)

end OptionName

/-- Puts a value in a place that has none. -/
def putOnce {α : Type} (place : Option α) (value : Option α) : Except NoCommand (Option α) :=
  if place.isSome || value.isNone then .error .usage else .ok value

def number? (value : String) : Option Nat := (Numeral.read 10 value.toList).toOption

/-- Sets an option that was not set before. -/
def RunOptions.set (o : RunOptions) (name : OptionName) (value : String) : Except NoCommand RunOptions := do
  match name with
  | .capacity => return { o with capacity := ← putOnce o.capacity (number? value) }
  | .backend => return { o with backend := ← putOnce o.backend value }
  | .allocs => return { o with allocs := ← putOnce o.allocs (number? value) }
  | .releaseEvery => return { o with releaseEvery := ← putOnce o.releaseEvery (number? value) }
  | .swapTo => return { o with swapTo := ← putOnce o.swapTo value }
  | .threads => return { o with threads := ← putOnce o.threads (number? value) }
  | .seed => return { o with seed := ← putOnce o.seed value }
  | .output => return { o with output := ← putOnce o.output (if value = "" then Option.none else some value) }

/-- What an argument is: a long option with or without a value of its own, the end of the options, a request for
help, another short option, or a plain word.  A single dash is a plain word. -/
inductive Argument
  | long (name : String) (value : Option String)
  | endOfOptions
  | help
  | short
  | word (w : String)
deriving DecidableEq

def Argument.classify (arg : String) : Argument :=
  match arg.toList with
  | ['-', '-'] => .endOfOptions
  | '-' :: '-' :: cs =>
    let name := String.ofList (cs.takeWhile (· ≠ '='))
    match cs.dropWhile (· ≠ '=') with
    | [] => if name = "help" then .help else .long name none
    | _ :: value => .long name (some (String.ofList value))
  | '-' :: 'h' :: _ => .help
  | '-' :: _ :: _ => .short
  | _ => .word arg

/-- Reads the arguments behind `run`. -/
def parseRun (o : RunOptions) : List String → Except NoCommand RunOptions
  | [] => .ok o
  | arg :: rest =>
    match Argument.classify arg with
    | .endOfOptions => if rest.isEmpty then .ok o else .error .usage
    | .help => .error (.help .run)
    | .short => .error .usage
    | .word _ => .error .usage
    | .long name value =>
      match OptionName.parse name, value, rest with
      | none, _, _ => .error .usage
      | some name, some value, rest => (o.set name value).bind fun o => parseRun o rest
      | some _, none, [] => .error .usage
      | some name, none, value :: rest =>
        match Argument.classify value with
        | .word value => (o.set name value).bind fun o => parseRun o rest
        | _ => .error .usage

/-- Reads the arguments behind `config`. -/
def parseConfig : List String → Except NoCommand Unit
  | [] => .ok ()
  | arg :: rest =>
    match Argument.classify arg with
    | .endOfOptions => if rest.isEmpty then .ok () else .error .usage
    | .help => .error (.help .config)
    | _ => .error .usage

/-- Reads the words behind `help`, which name at most one command. -/
def parseHelp : List String → NoCommand
  | [] => .help .program
  | [command] => ((HelpTopic.parse command).map .help).getD .usage
  | _ => .usage

def parse : List String → Except NoCommand Command
  | [] => .error .usage
  | "run" :: rest => (parseRun .none rest).map .run
  | "config" :: rest => (parseConfig rest).map fun _ => .config
  | "help" :: rest => .error (parseHelp rest)
  | arg :: _ => .error (if Argument.classify arg = .help then .help .program else .usage)

end CommandLine

end BlockTracker
