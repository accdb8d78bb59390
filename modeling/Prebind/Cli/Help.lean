/-!
What the command line says about itself: the use of the program or of one of its commands, with
lists in two columns.
-/

namespace Prebind
namespace Cli

inductive Topic where
  | program | emit | build | init | selfTest | help
  deriving DecidableEq, Repr

namespace Topic

/-- The topic that a command is named by. -/
def ofCommand? : String → Option Topic
  | "emit" => some .emit
  | "build" => some .build
  | "init" => some .init
  | "selftest" => some .selfTest
  | "help" => some .help
  | _ => none

def about : Topic → String
  | .program => "Generate x86-64 trampolines that bind an extra argument"
  | .emit => "Generate one trampoline and print its bytes"
  | .build => "Generate every trampoline listed in a manifest"
  | .init => "Write a starter stubs.toml"
  | .selfTest => "Run generated trampolines against a built-in function"
  | .help => "Print this message or the help of the given subcommand(s)"

def usage : Topic → String
  | .program => "argbind [OPTIONS] <COMMAND>"
  | .emit => "argbind emit [OPTIONS] --target <TARGET> --value <VALUE>"
  | .build => "argbind build [OPTIONS] [FILE]"
  | .init => "argbind init [OPTIONS]"
  | .selfTest => "argbind selftest [OPTIONS]"
  | .help => "argbind help [COMMAND]..."

end Topic

namespace Help

/-- A name and what is said about it. -/
structure Row where
  name : String
  note : String
  deriving DecidableEq, Repr

structure Section where
  title : String
  rows : List Row
  deriving DecidableEq, Repr

def option (name note : String) : Row :=
  ⟨"    --" ++ name, note⟩

def trace : Row :=
  option "trace" "Trace every emitted instruction"

def help : Row :=
  ⟨"-h, --help", "Print help"⟩

def format : Row :=
  option "format <FORMAT>"
    "Output format (human, json) [default: human] [possible values: human, json]"

def command (name : String) (topic : Topic) : Row :=
  ⟨name, topic.about⟩

def sections : Topic → List Section
  | .program => [
      ⟨"Commands", [command "emit" .emit, command "build" .build, command "init" .init,
        command "selftest" .selfTest, command "help" .help]⟩,
      ⟨"Options", [trace, help]⟩]
  | .emit => [
      ⟨"Options", [
        option "target <TARGET>" "Address of the function to forward to",
        trace,
        option "value <VALUE>" "Value to bind",
        option "position <POSITION>"
          "Argument position receiving the value (2, 3 or 4) [default: 2]",
        option "base <BASE>"
          "Address to report the trampoline at (defaults to the scratch buffer)",
        format, help]⟩]
  | .build => [
      ⟨"Arguments", [
        ⟨"[FILE]", "The manifest (defaults to stubs.toml in the current directory)"⟩]⟩,
      ⟨"Options", [
        option "base <BASE>" "Address the table is assumed to be loaded at",
        trace, format, help]⟩]
  | .init => [
      ⟨"Options", [option "force" "Overwrite an existing stubs.toml", trace, help]⟩]
  | .selfTest => [⟨"Options", [trace, help]⟩]
  | .help => [⟨"Arguments", [⟨"[COMMAND]...", "Print help for the subcommand(s)"⟩]⟩]

/-- A row with its note in the column behind names of a width. -/
def Row.line (width : Nat) (r : Row) : List Char :=
  "  ".toList ++ r.name.toList ++ List.replicate (width - r.name.length) ' ' ++ "  ".toList ++
    r.note.toList ++ ['\n']

/-- A section under an empty line and its title. The longest name makes the width. -/
def Section.lines (s : Section) : List Char :=
  let width := (s.rows.map (·.name.length)).foldl max 0
  '\n' :: s.title.toList ++ ":\n".toList ++ s.rows.flatMap (Row.line width)

def text (topic : Topic) : String :=
  .ofList (topic.about.toList ++ "\n\nUsage: ".toList ++ topic.usage.toList ++ ['\n'] ++
    (sections topic).flatMap Section.lines)

end Help
end Cli
end Prebind
