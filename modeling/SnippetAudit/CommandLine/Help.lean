import SnippetAudit.CommandLine.Grammar

/-!
What is said about the command line: how it is used, and what is wrong with one that is not
followed.
-/

namespace SnippetAudit.CommandLine

def helpText : String :=
  String.join <| [
    "Heuristic code quality analyzer for source snippets",
    "",
    "Usage: codesense [OPTIONS] <COMMAND>",
    "",
    "Commands:",
    "  analyze  Analyze a single snippet: a file, `-` for standard input, or --code TEXT",
    "  batch    Analyze every file under the given paths",
    "  history  List archived reports, oldest first",
    "  init     Write a default .codesense.toml in the current directory",
    "",
    "Options:",
    "  -v, --verbose          Show more log lines (-v info, -vv debug)",
    "      --config <FILE>    Configuration file (defaults to the nearest .codesense.toml)",
    "  -f, --format <FORMAT>  Output format: json, markdown or terminal",
    "  -o, --output <FILE>    Output file (defaults to standard output)",
    "      --no-archive       Do not store the report (analyze)",
    "  -n, --limit <N>        Show only the N most recent reports (history)",
    "      --force            Overwrite an existing file (init)",
    "  -h, --help             Print help",
    "  -V, --version          Print version"].map (· ++ "\n")

def Problem.message : Problem → String
  | missingArgument => "a required argument is missing"
  | conflict => "an argument is given twice, or together with one that excludes it"
  | unknownArgument => "an argument is not known here"
  | badValue => "a value is missing or is not a possible one"
  | badNumber => "a value is not a number"
  | needlessValue => "a value is given for an argument that takes none"
  | unknownCommand => "a command is not known"
  | missingCommand => "a command is missing"
  | nothingGiven => "nothing is asked for"
  | helpWanted => "help is asked for"
  | versionWanted => "the version is asked for"

end SnippetAudit.CommandLine
