import PageLoom.Console.Markup
import PageLoom.Site.Report

/-!
# Notices

What a run announces on the console. A notice is printed whole or not at all: texts with brackets
in them, such as paths, are markup like the rest of their line, and may be markup that cannot be
printed.
-/

namespace PageLoom.Command

open Site

/-- What a run announces. -/
inductive Notice where
  | summary (report : BuildReport)
  | unresolved (rows : List Component.FailureRow)
  | failedHeading
  | failed (location : Location) (reason : Text)
  | configurationError (message : Text)
  | error (message : Text)
  | complete (output : Location)
  | serving (output : Location) (address : Text)
  | watching
  | serverRefused (reason : Text)
deriving Repr, DecidableEq

/-- A line in parts, each of which is markup by itself. -/
abbrev Line := List Text

def entryLine (name value : Text) : Line := ["  ".toList, name, ": ".toList, value]

def missingLine (row : Component.FailureRow) : Line :=
  entryLine row.component row.firstFile ++ [" (".toList ++ Text.ofNat row.occurrences ++ [')']]

namespace Notice

def markup : Notice → List Line
  | summary report =>
    ["Build Summary".toList] :: report.summaryRows.map fun (name, value) => entryLine name value
  | unresolved rows => ["Unresolved Components".toList] :: rows.map missingLine
  | failedHeading =>
    [["[bold red]Some documents could not be processed (copied unchanged):[/]".toList]]
  | failed location reason =>
    [["  • ".toList ++ Location.toText location ++ ": ".toList ++ reason]]
  | configurationError message => [["[bold red]Configuration error:[/] ".toList ++ message]]
  | error message => [["[bold red]Error:[/] ".toList ++ message]]
  | complete output =>
    [["[bold green]Processing complete.[/] Output directory: ".toList ++ Location.toText output]]
  | serving output address =>
    [["[bold green]Serving[/] ".toList ++ Location.toText output ++ " at [cyan]".toList ++
      address ++ "[/]".toList]]
  | watching => [["[yellow]Watching for changes. Press Ctrl+C to stop.[/]".toList]]
  | serverRefused reason => [["[bold red]Cannot start server:[/] ".toList ++ reason]]

def printLine (line : Line) : Except Console.MarkupError Text :=
  (line.mapM Console.printed).map List.flatten

/-- The lines that are printed. -/
def lines (notice : Notice) : Except Console.MarkupError (List Text) :=
  notice.markup.mapM printLine

end Notice

/-- Notices up to the first that cannot be printed, and why it cannot. -/
def printable : List Notice → List Notice × Option Console.MarkupError
  | [] => ([], none)
  | notice :: notices =>
    match notice.lines with
    | .error error => ([], some error)
    | .ok _ =>
      let (said, error?) := printable notices
      (notice :: said, error?)

/-- Everything that some notices print. -/
def printedText (notices : List Notice) : Text :=
  (notices.flatMap fun notice => (notice.lines).toOption.getD []).flatMap (· ++ ['\n'])

/-- The phrases by which notices are told apart. -/
def phrases : List Text := [
  "Build Summary".toList,
  "Unresolved Components".toList,
  "Some documents could not".toList,
  "Configuration error:".toList,
  "Error:".toList,
  "Processing complete.".toList,
  "Serving".toList,
  "Watching for changes.".toList,
  "Cannot start server:".toList]

/-- The phrases that occur in what some notices print. -/
def phrasesIn (notices : List Notice) : List Text :=
  let said := printedText notices
  phrases.filter fun phrase => Text.includes phrase said

end PageLoom.Command
