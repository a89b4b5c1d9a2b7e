import DualShell.CommandLine.Arguments

/-!
Reading the words of a command line. A value stands in the word after its flag or after an equals
sign. Words that cannot be read have no command; a word that asks for help is heeded unless something
before it is wrong already.
-/

namespace DualShell.CommandLine

/-- The spelling in a word that is a flag, and the value after an equals sign if there is one. -/
def readFlagWord? : Text → Option (Text × Option Text)
  | '-' :: '-' :: rest =>
    let spelling := rest.takeWhile (· ≠ '=')
    match rest.drop spelling.length with
    | [] => some (spelling, none)
    | _ :: value => some (spelling, some value)
  | _ => none

/-- Whether a word can be the value of the flag before it: it does not look like a flag. -/
def isValueWord (word : Text) : Bool := word = "-" || word.head? ≠ some '-'

def endOfFlags : Text := "--"

/-- The flags that occur in the words, if every word belongs to one of the known flags; `pending` is
the flag whose value the next word has to be. -/
def readFlagsFrom? (known : List Flag) : Option Flag → List Text → Option (List Occurrence)
  | none, [] => some []
  | some _, [] => none
  | some flag, word :: rest =>
    if isValueWord word then (readFlagsFrom? known none rest).map ((flag, word) :: ·) else none
  | none, word :: rest =>
    if word = endOfFlags then if rest = [] then some [] else none
    else
      match readFlagWord? word with
      | none => none
      | some (spelling, attached) =>
        match known.find? (·.spelling = spelling) with
        | none => none
        | some flag =>
          match flag.takesValue, attached with
          | true, some value => (readFlagsFrom? known none rest).map ((flag, value) :: ·)
          | true, none => readFlagsFrom? known (some flag) rest
          | false, none => (readFlagsFrom? known none rest).map ((flag, []) :: ·)
          | false, some _ => none

def readFlags? (known : List Flag) (words : List Text) : Option (List Occurrence) :=
  readFlagsFrom? known none words

/-- The value of a flag that occurs at most once; the outer result is none when it occurs more
often. -/
def optional? (flag : Flag) (occurrences : List Occurrence) : Option (Option Text) :=
  match valuesOf flag occurrences with
  | [] => some none
  | [value] => some (some value)
  | _ => none

/-- The family that a flag names, by its exact name. -/
def readFamily? (occurrences : List Occurrence) : Option (Option Family) := do
  match ← optional? .family occurrences with
  | none => return none
  | some name => return some (← Family.ofName? name)

/-- The request in the flags that occur: there is a name and something to run. -/
def RenderRequest.ofFlags? (occurrences : List Occurrence) : Option RenderRequest := do
  let name ← (← optional? .name occurrences)
  let home ← optional? .home occurrences
  let logDirectory ← optional? .logDirectory occurrences
  let family ← readFamily? occurrences
  let output ← optional? .output occurrences
  let diagnostics ← optional? .diagnostics occurrences
  let run := valuesOf .run occurrences
  if run = [] then none
  else
    return {
      name, home, logDirectory, family, run, output
      exports := valuesOf .exported occurrences
      init := valuesOf .init occurrences
      diagnostics := diagnostics.isSome }

def readCommand? : List Text → Option Command
  | [] => none
  | word :: rest =>
    if word = "render" then do
      let occurrences ← readFlags? Flag.ofRender rest
      return .render (← RenderRequest.ofFlags? occurrences)
    else if word = "functions" then do
      let occurrences ← readFlags? Flag.ofFunctions rest
      return .functions (← readFamily? occurrences)
    else none

/-- Whether a word asks for help where a flag can stand. -/
def isHelpWord (word : Text) : Bool := word = "--help" || word = "-h"

/-- Whether nothing is wrong yet with flags that occur: single ones occur once, and a family is
known. -/
def isSoundSoFar (occurrences : List Occurrence) : Bool :=
  (readFamily? occurrences).isSome &&
    [Flag.name, .home, .logDirectory, .output, .diagnostics].all fun flag =>
      (optional? flag occurrences).isSome

/-- Whether the words after a command ask for help. -/
def asksForHelp (known : List Flag) (words : List Text) : Bool :=
  let before := words.takeWhile fun word => !isHelpWord word
  before.length < words.length && !before.contains endOfFlags &&
    (readFlags? known before).any isSoundSoFar

def helpText : Text := Family.unix.block [
  "Render portable lifecycle scripts for Unix and Windows hosts",
  "",
  "Usage: scriptgen render --name NAME --run LINE [FLAGS]",
  "       scriptgen functions [--family FAMILY]"]

def readWords (words : List Text) : Reading :=
  match readCommand? words, words with
  | some command, _ => .command command
  | none, [] => .refused
  | none, word :: rest =>
    if isHelpWord word || word = "help" || (word = "render" && asksForHelp Flag.ofRender rest) ||
        (word = "functions" && asksForHelp Flag.ofFunctions rest) then .help helpText
    else .refused

end DualShell.CommandLine
