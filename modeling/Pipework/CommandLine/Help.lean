import Pipework.CommandLine.Arguments
import Pipework.Text.Lines

/-! What the command line says about itself. -/

namespace Pipework.CommandLine

def versionText : String := "pipeflow 0.1.0"

def helpAbout : String := "Print this message or the help of the given subcommand(s)"

def helpOption : String := "  -h, --help  Print help"

def variableText (env : Environment) (name : String) : String :=
  "[env: " ++ name ++ "=" ++ (env name).getD "" ++ "]"

def entryText (left about : String) : String :=
  let margin := String.ofList (List.replicate left.length ' ')
  left ++ Text.join ("\n" ++ margin) ((Text.splitOn '\n' about.toList).map String.ofList)

def helpLines (env : Environment) : Topic → List String
  | .program => [
      "Resumable pipe execution engine", "",
      "Usage: pipeflow <COMMAND>", "",
      "Commands:",
      "  validate  Validate a pipe definition file (JSON or YAML)",
      "  run       Run a pipe definition file",
      "  help      " ++ helpAbout, "",
      "Options:",
      "  -h, --help     Print help",
      "  -V, --version  Print version"]
  | .validate => [
      "Validate a pipe definition file (JSON or YAML)", "",
      "Usage: pipeflow validate <PATH>", "",
      "Arguments:",
      "  <PATH>  Path to the pipe definition", "",
      "Options:",
      helpOption]
  | .run => [
      "Run a pipe definition file", "",
      "Usage: pipeflow run [OPTIONS] <PATH>", "",
      "Arguments:",
      "  <PATH>  Path to the pipe definition", "",
      "Options:",
      entryText "  -i, --input <INPUTS>         "
        "Input value pushed onto the input stack (JSON, or a plain string)",
      entryText "      --global <GLOBAL>        "
        ("JSON object exposed to templates as `global` " ++ variableText env "PIPEFLOW_GLOBAL"),
      entryText "      --sid <SID>              "
        ("Caller/session identifier " ++ variableText env "PIPEFLOW_SID" ++ " [default: \"\"]"),
      entryText "      --max-steps <MAX_STEPS>  "
        ("Maximum node dispatches before the run is aborted "
          ++ variableText env "PIPEFLOW_MAX_STEPS"),
      "  -h, --help                   Print help"]
  | .help => [
      helpAbout, "",
      "Usage: pipeflow help [COMMAND]...", "",
      "Arguments:",
      "  [COMMAND]...  Print help for the subcommand(s)"]

def helpText (env : Environment) (topic : Topic) : String := Text.join "\n" (helpLines env topic)

end Pipework.CommandLine
