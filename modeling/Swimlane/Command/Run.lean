import Swimlane.Command.Arguments
import Swimlane.Command.Check
import Swimlane.Command.FileTree
import Swimlane.Command.Log
import Swimlane.Json.Graph
import Swimlane.Settings

/-!
# Running commands

A command is a function of the files it finds, its standard input and the settings of the terminal.
Its `Transcript` is all that it does: what it prints, which problems it reports, and the files as
it leaves them.

## Main definitions

* `World`: what a command finds;
* `Transcript`: what a command does;
* `Command.run`: carries out a command;
* `runLine`: carries out a command line.
-/

namespace Swimlane

/-- What a command finds. -/
structure World where
  files : FileTree := {}
  input : ByteArray := .empty
  /-- Whether the terminal shows colours. -/
  paint : Bool := false
  /-- Up to which level log entries are written, if that is set apart from the command line. -/
  threshold : Option Log.Threshold := none

/-- A problem that is reported on the standard error. -/
inductive Report where
  | failure (f : Failure)
  /-- A diagnostic and the text that it is about. -/
  | diagnostic (d : Diagnostic) (source : NamedText)
  deriving Repr, DecidableEq

/-- The code that a report shows. -/
def Report.code : Report → String
  | .failure f => f.kind.code
  | .diagnostic d _ => d.kind.code

/-- What a command does. -/
structure Transcript where
  exitCode : Nat := 0
  output : String := ""
  reports : List Report := []
  log : List Log.Entry := []
  /-- The files after the command. -/
  files : FileTree

namespace World

/-- The text under a path, or on the standard input. -/
def source (w : World) (path : String) : Except Failure NamedText :=
  if isStandardInput path then
    match String.fromUTF8? w.input with
    | some text => .ok ⟨"<stdin>", text⟩
    | none => .error (Fault.unreadable "standard input").failure
  else
    match w.files.readText? path with
    | some text => .ok ⟨path, text⟩
    | none => .error (Fault.unreadable path).failure

/-- The options of a settings file, or the defaults without one. -/
def options (w : World) : Option String → Except Failure Options
  | none => .ok {}
  | some path =>
    match w.files.readText? path with
    | none => .error (Fault.unreadableSettings path).failure
    | some text =>
      match Settings.parse text with
      | .error fault => .error fault.failure
      | .ok options => .ok options

end World

namespace Command

/-- The transcript of a command that fails before it has done anything. -/
def fail (w : World) (f : Failure) : Transcript :=
  { exitCode := 1, reports := [.failure f], files := w.files }

/-- The diagnostics of a text as reports. -/
def reportsOf (source : NamedText) (ds : List Diagnostic) : List Report :=
  ds.map (.diagnostic · source)

/-- The options of `render`: those of the settings with what the command line says instead. -/
def drawOptions (options : Options) (direction : Option Direction) (noStyles : Bool) : Options :=
  { options with
    draw :=
      { options.draw with
        direction := direction.getD options.draw.direction
        styles := options.draw.styles && !noStyles } }

/-- Options and text of a command, options first. -/
def load (w : World) (config : Option String) (file : String) :
    Except Failure (Options × NamedText) :=
  match w.options config with
  | .error f => .error f
  | .ok options =>
    match w.source file with
    | .error f => .error f
    | .ok source => .ok (options, source)

/-- Delivers a diagram to a file or to the standard output. -/
def deliver (w : World) (threshold : Log.Threshold) (output : Option String) (diagram : String)
    (t : Transcript) : Transcript :=
  match output with
  | none => { t with output := diagram }
  | some path =>
    match w.files.write? path diagram.toUTF8 with
    | none =>
      { t with exitCode := 1, reports := t.reports ++ [.failure (Fault.unwritable path).failure] }
    | some files =>
      { t with files, log := t.log ++ Log.upTo threshold fun _ => [Log.ofWritten path] }

/-- Draws the diagram of a text. -/
def runRender (w : World) (threshold : Log.Threshold) (file : String) (output : Option String)
    (direction : Option Direction) (noStyles : Bool) (config : Option String) : Transcript :=
  match load w config file with
  | .error f => fail w f
  | .ok (options, source) =>
    let options := drawOptions options direction noStyles
    match compile options source.text with
    | .error f => fail w (f.withSource source.name source.text)
    | .ok c =>
      deliver w threshold output c.diagram
        { reports := reportsOf source c.graph.diagnostics
          log := Log.upTo threshold fun _ => Log.ofCompiled options source.text c
          files := w.files }

/-- Prints the process graph of a text. -/
def runAst (w : World) (threshold : Log.Threshold) (file : String) (compact : Bool)
    (config : Option String) : Transcript :=
  match load w config file with
  | .error f => fail w f
  | .ok (options, source) =>
    match ProcessGraph.ofText options.read source.text with
    | .error f => fail w (f.withSource source.name source.text)
    | .ok graph =>
      { output := graph.publish (if compact then .compact else .pretty)
        log := Log.upTo threshold fun _ => Log.ofText options.read source.text
        files := w.files }

/-- What a check finds about one file: its status, the problems it reports and the log. -/
structure FileCheck where
  status : FileStatus
  reports : List Report
  log : List Log.Entry := []

/-- Checks one file. -/
def checkFile (w : World) (threshold : Log.Threshold) (options : ReadOptions) (path : String) :
    FileCheck :=
  match w.source path with
  | .error f => ⟨.failed, [.failure f], []⟩
  | .ok source =>
    let log := Log.upTo threshold fun _ => Log.ofText options source.text
    match ProcessGraph.ofText options source.text with
    | .error f => ⟨.failed, [.failure (f.withSource source.name source.text)], log⟩
    | .ok graph =>
      let status :=
        if graph.diagnostics.isEmpty then .clean else .warnings graph.diagnostics.length
      ⟨status, reportsOf source graph.diagnostics, log⟩

/-- Checks all sources under a path. -/
def runCheck (w : World) (threshold : Log.Threshold) (path : String) (denyWarnings : Bool)
    (config : Option String) : Transcript :=
  match w.options config with
  | .error f => fail w f
  | .ok options =>
    match w.files.discover? path with
    | none => fail w (Fault.missing path).failure
    | some sources =>
      let checks := sources.map (checkFile w threshold options.read)
      let summary := CheckSummary.ofStatuses (checks.map (·.status))
      let lines := List.zipWith (fun source c => c.status.line w.paint source) sources checks
      { exitCode := if summary.passed denyWarnings then 0 else 1
        output := String.join lines ++ summary.text w.paint
        reports := checks.flatMap (·.reports)
        log := Log.upTo threshold (fun _ => [Log.ofSources path sources]) ++ checks.flatMap (·.log)
        files := w.files }

/-- Carries out a command. -/
def run (w : World) (threshold : Log.Threshold) : Command → Transcript
  | .render file output direction noStyles config =>
    runRender w threshold file output direction noStyles config
  | .ast file compact config => runAst w threshold file compact config
  | .check path denyWarnings config => runCheck w threshold path denyWarnings config

end Command

/-- The name and version of the program. -/
def versionText : String := "bpmn-lite 0.1.0\n"

/-- How the program is used. -/
def usageText : String :=
  "Usage: bpmn-lite [-v]... <COMMAND>\n\nCommands:\n" ++
  "  render <FILE> [-o <PATH>] [--direction <DIR>] [--no-styles] [--config <PATH>]\n" ++
  "  ast <FILE> [--compact] [--config <PATH>]\n" ++
  "  check [PATH] [--deny-warnings] [--config <PATH>]\n"

/-- What is printed in answer to a request for help or the version. -/
def ArgumentError.answer : ArgumentError → String
  | .helpRequested => usageText
  | .versionRequested => versionText
  | _ => ""

/-- Carries out a command line. -/
def runLine (w : World) (args : List String) : Transcript :=
  match Arguments.parse args with
  | .error e => { exitCode := e.exitCode, output := e.answer, files := w.files }
  | .ok a => a.command.run w (w.threshold.getD (Log.Level.ofVerbosity a.verbose).rank)

end Swimlane
