import WarmCheck.CommandLine.Arguments

/-!
# Help

What the program says about itself and about arguments that it does not understand.

* `Topic.text`, `versionText`, `UsageError.text`.
-/

namespace WarmCheck.CommandLine

/-- What a verb does, in one line. -/
def Verb.about : Verb → String
  | start => "Run the daemon in the foreground for a workspace"
  | check => "Report the latest check result, waiting for a running check to finish"
  | stop => "Signal the workspace daemon to shut down"
  | status => "Print a short summary of the daemon's state"

/-- An option as it is written. -/
def Flag.usage : Flag → String
  | root => "--root <ROOT>"
  | tsconfig => "--tsconfig <TSCONFIG>"
  | json => "--json"

/-- What an option is for, in one line. -/
def Flag.about : Flag → String
  | root => "Workspace root the daemon is bound to [default: .]"
  | tsconfig => "Checker project config (passed through as `--tsconfig`)"
  | json => "Emit the raw snapshot as JSON"

/-- Text with blanks after it, up to a width. -/
def pad (width : Nat) (s : String) : String :=
  s ++ String.ofList (List.replicate (width - s.length) ' ')

/-- Lines of two columns. -/
def table (rows : List (String × String)) : String :=
  let width := (rows.map (·.1.length)).foldl max 0
  String.join (rows.map fun (left, right) => "  " ++ pad width left ++ "  " ++ right ++ "\n")

/-- How a command is written. -/
def usageLine : Option Verb → String
  | none => "Usage: " ++ programName ++ " <COMMAND>"
  | some v => "Usage: " ++ programName ++ " " ++ v.name ++ " [OPTIONS]"

/-- What is said about a topic. -/
def Topic.text : Topic → String
  | program =>
    "Keep a type checker warm and ask it for results instantly\n\n" ++ usageLine none ++
      "\n\nCommands:\n" ++
      table (Verb.all.map (fun v => (v.name, v.about)) ++
        [("help", "Print this message or the help of the given subcommand(s)")]) ++
      "\nOptions:\n" ++ table [("-h, --help", "Print help"), ("-V, --version", "Print version")]
  | verb v =>
    v.about ++ "\n\n" ++ usageLine (some v) ++ "\n\nOptions:\n" ++
      table (v.flags.map (fun f => ("    " ++ f.usage, f.about)) ++ [("-h, --help", "Print help")])
  | help =>
    "Print this message or the help of the given subcommand(s)\n\nUsage: " ++ programName ++
      " help [COMMAND]...\n\nArguments:\n" ++
      table [("[COMMAND]...", "Print help for the subcommand(s)")]

/-- The version in one line. -/
def versionText : String := programName ++ " " ++ programVersion ++ "\n"

/-- Octets for a reader. -/
def shown (bs : Bytes) : String := String.ofList (Utf8.decodeLossy bs)

/-- The hint at the end of a complaint. -/
def helpHint : String := "\n\nFor more information, try '--help'.\n"

/-- What is said about arguments that stand for no command. -/
def UsageError.text : UsageError → String
  | noVerb => Topic.program.text
  | unknownVerb word =>
    "error: unrecognized subcommand '" ++ shown word ++ "'\n\n" ++ usageLine none ++ helpHint
  | unexpected v argument =>
    "error: unexpected argument '" ++ shown argument ++ "' found\n\n" ++ usageLine v ++ helpHint
  | noValue f =>
    "error: a value is required for '" ++ f.usage ++ "' but none was supplied" ++ helpHint
  | needlessValue v flag value =>
    "error: unexpected value '" ++ shown value ++ "' for '--" ++ shown flag ++
      "' found; no more were expected\n\n" ++ usageLine v ++ helpHint
  | repeated v f =>
    "error: the argument '" ++ f.usage ++ "' cannot be used multiple times\n\n" ++
      usageLine (some v) ++ helpHint

end WarmCheck.CommandLine
