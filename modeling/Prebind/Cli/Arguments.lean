import Prebind.Address
import Prebind.Cli.Help
import Prebind.Config

/-!
The arguments of the command line. Options come in any order, with their value behind an equals sign
or as the next word; a word that starts with a hyphen is no such value, except the hyphen alone.
Behind `--` all words are plain ones. An option may not come twice.

Arguments that do not make a request are refused as a whole. Asking for help ends a command line:
what comes behind is not looked at, and what stands in front must only have no mistake in it.
-/

namespace Prebind
namespace Cli

inductive Request where
  | emit (target value position : UInt64) (base : Option UInt64) (format : Format)
  | build (file : Option String) (base : Option UInt64) (format : Format)
  | init (force : Bool)
  | selfTest
  | help (topic : Topic)
  deriving DecidableEq, Repr

structure Invocation where
  trace : Bool
  request : Request
  deriving DecidableEq, Repr

/-- The words of a command line, sorted. -/
structure Words where
  options : List (String × String) := []
  flags : List String := []
  plain : List String := []
  /-- The words are followed by a call for help. -/
  help : Bool := false
  deriving DecidableEq, Repr

/-- The options that a command knows: those with a value and those without. -/
structure Known where
  valued : List String := []
  flags : List String := []

/-- Whether a word is an option, or looks like one. -/
def isOption (word : String) : Bool :=
  word.toList.head? = some '-' && word ≠ "-"

/-- A call for help. In the short form, anything may follow the letter. -/
def isHelp (word : String) : Bool :=
  word = "--help" || ['-', 'h'].isPrefixOf word.toList

/-- The name of an option and the value behind its equals sign. -/
def splitOption (word : String) : String × Option String :=
  let s := word.toList
  match s.dropWhile (· ≠ '=') with
  | [] => (word, none)
  | _ :: value => (.ofList (s.takeWhile (· ≠ '=')), some (.ofList value))

def sort (known : Known) : List String → Option Words
  | [] => some {}
  | word :: rest =>
    if word = "--" then some { plain := rest }
    else if isHelp word then some { help := true }
    else if !isOption word then do
      let words ← sort known rest
      return { words with plain := word :: words.plain }
    else
      match splitOption word with
      | (name, none) =>
        if name ∈ known.flags then do
          let words ← sort known rest
          return { words with flags := name :: words.flags }
        else if name ∈ known.valued then
          match rest with
          | value :: rest =>
            if isOption value then none
            else do
              let words ← sort known rest
              return { words with options := (name, value) :: words.options }
          | [] => none
        else none
      | (name, some value) =>
        if name ∈ known.valued then do
          let words ← sort known rest
          return { words with options := (name, value) :: words.options }
        else none

/-- Whether every option comes at most once. -/
def Words.distinct (w : Words) : Bool :=
  decide (w.options.map (·.1)).Nodup && decide w.flags.Nodup

/-- The value of an option, read in the way it has to be; `absent` if it is not there. -/
def Words.value {α : Type} (w : Words) (name : String) (absent : Option α)
    (read : String → Option α) : Option α :=
  match w.options.lookup name with
  | some text => read text
  | none => absent

def readAddress (text : String) : Option UInt64 :=
  (Address.parse text).toOption

def readPosition (text : String) : Option UInt64 :=
  (Numeral.read 10 text.toList).toOption

def readFormat : String → Option Format
  | "human" => some .human
  | "json" => some .json
  | _ => none

def Words.base (w : Words) : Option (Option UInt64) :=
  w.value "--base" (some none) fun text => (readAddress text).map some

def Words.format (w : Words) : Option Format :=
  w.value "--format" (some .human) readFormat

/-- The options of each command. Tracing may be asked for in front of a command and behind it. -/
def known : String → Option Known
  | "emit" =>
    some ⟨["--target", "--value", "--position", "--base", "--format"], ["--trace"]⟩
  | "build" => some ⟨["--base", "--format"], ["--trace"]⟩
  | "init" => some ⟨[], ["--force", "--trace"]⟩
  | "selftest" => some ⟨[], ["--trace"]⟩
  | _ => none

/-- Whether a word can be the name of a file. -/
def isFile (word : String) : Bool :=
  !word.isEmpty

/-- Whether the value of an option can be read, if the option is there. -/
def Words.legible {α : Type} (w : Words) (name : String) (read : String → Option α) : Bool :=
  (w.options.lookup name).all fun text => (read text).isSome

/-- Whether the words in front of a call for help are in order, as far as they go. -/
def Words.sound (command : String) (w : Words) : Bool :=
  (w.plain.isEmpty || (command = "build" && w.plain.length = 1 && w.plain.all isFile)) &&
    w.legible "--target" readAddress && w.legible "--value" readAddress &&
    w.legible "--position" readPosition && w.legible "--base" readAddress &&
    w.legible "--format" readFormat

def helpOn? (command : String) (w : Words) : Option Request := do
  if !w.sound command then none
  return .help (← Topic.ofCommand? command)

def request? (command : String) (w : Words) : Option Request :=
  match command, w.plain with
  | "emit", [] => do
    let target ← w.value "--target" none readAddress
    let value ← w.value "--value" none readAddress
    let position ← w.value "--position" (some 2) readPosition
    return .emit target value position (← w.base) (← w.format)
  | "build", [] => do
    return .build none (← w.base) (← w.format)
  | "build", [file] => do
    if !isFile file then none
    return .build (some file) (← w.base) (← w.format)
  | "init", [] => some (.init ("--force" ∈ w.flags))
  | "selftest", [] => some .selfTest
  | _, _ => none

/-- What the command for help is about. No command has commands of its own. -/
def topic? : List String → Option Topic
  | [] => some .program
  | [command] => Topic.ofCommand? command
  | _ => none

/-- Reads the command and what follows it. -/
def command? (trace : Bool) : List String → Option Invocation
  | [] => none
  | command :: rest =>
    if isHelp command then some ⟨trace, .help .program⟩
    else if command = "help" then (topic? rest).map fun topic => ⟨trace, .help topic⟩
    else do
      let words ← sort (← known command) rest
      if !words.distinct then none
      let request ← if words.help then helpOn? command words else request? command words
      return ⟨trace || decide ("--trace" ∈ words.flags), request⟩

def parse? : List String → Option Invocation
  | "--trace" :: rest => command? true rest
  | arguments => command? false arguments

end Cli
end Prebind
