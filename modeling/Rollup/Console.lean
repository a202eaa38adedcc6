/-
What the program writes to its output streams.

Notices come first, a line each, then the summary.  A failure is reported with
the causes that led to it, the nearest first.
-/

import Rollup.Run

namespace Rollup

namespace Console

/-! ### Notices -/

def levelStyle : Level → Style
  | .trace => .faint
  | .debug => .blue
  | .info => .green
  | .warn => .yellow
  | .error => .red

/-- Controls with which a text could steer the terminal it is shown on. -/
def steersTerminal (char : Char) : Bool :=
  ['\x07', '\x08', '\x0c', '\x1b', '\x7f'].contains char ||
    (0x80 ≤ char.toNat && char.toNat ≤ 0x9f)

/-- Such a control is shown as its code. -/
def harmless (char : Char) : List Char :=
  if steersTerminal char then
    if char.toNat < 0x80 then
      let digits := Nat.toDigits 16 char.toNat
      '\\' :: 'x' :: (List.replicate (2 - digits.length) '0' ++ digits)
    else QuotedText.codeEscape char
  else [char]

def noticeLine (colored : Bool) (notice : Notice) : String :=
  let level := styled colored (levelStyle notice.level) (rightAligned 5 notice.level.name)
  let topic := styled colored .faint notice.topic ++ styled colored .faint ":"
  let text := String.ofList (notice.text.toList.flatMap harmless)
  level ++ " " ++ topic ++ " " ++ text ++ "\n"

/-- The lines of the notices that are shown. -/
def noticeLines (verbosity : Verbosity) (colored : Bool) (notices : List Notice) : String :=
  String.join ((notices.filter verbosity.shows).map (noticeLine colored))

/-! ### Failures -/

/-- The texts of the causes that this program gives, the nearest first. -/
def ownCauses : RunError → List String
  | .dataDirectory cause => [cause.message]
  | .manifest cause => [cause.message]
  | .ingest error => error.message :: ingestCauses error
  | .refresh cause => [cause.message]
  | .snapshot cause => [cause.message]
where
  treeCauses : TreeError → List String
    | .invalidPath _ cause => [cause.message]
    | .unknownDirectory _ | .unknownFile _ => []
  trackCauses : TrackError → List String
    | .malformedPath _ cause => [cause.message]
  ingestCauses : IngestError → List String
    | .mutation _ cause => cause.message :: treeCauses cause
    | .tracking _ cause => cause.message :: trackCauses cause

/-- What is behind the last own cause: the answer of the file system, or what
is wrong with a text. -/
def outerCause : RunError → Option String
  | .manifest (.unreadable _ fault) => some fault.message
  | .manifest (.notUtf8 _) => some "invalid utf-8 sequence"
  | .manifest .invalidYaml => some "the document is not well formed"
  | .snapshot (.createDirectory _ fault) => some fault.message
  | .snapshot (.read _ fault) => some fault.message
  | .snapshot (.write _ fault) => some fault.message
  | _ => none

def numbered (first : Nat) : List String → String
  | [] => ""
  | text :: rest => s!"  {first}: {text}\n" ++ numbered (first + 1) rest

/-- The report of a failure with all of its causes. -/
def report (error : RunError) : String :=
  let causes := ownCauses error ++ (outerCause error).toList
  let heading :=
    if causes.length = 1 then "Caused by this error:\n"
    else "Caused by these errors (recent errors listed first):\n"
  "Error: " ++ error.message ++ "\n\n" ++ heading ++ numbered 1 causes ++ "\n"

/-! ### Executions -/

/-- How the program ended. -/
inductive Ending where
  | finished
  | failed (error : RunError)
  | refused (stop : Stop)

def Ending.code : Ending → Nat
  | .finished => 0
  | .failed _ => 1
  | .refused _ => 2

structure Execution where
  ending : Ending
  output : String
  errors : String

def colorsNotices (environment : Environment) : Bool := environment.noColor.isNone

/-- The output is no terminal, so colours have to be asked for. -/
def colorsSummary (environment : Environment) : Bool :=
  environment.forceColor = some "1" && environment.noColor.isNone

def refuse (stop : Stop) : Execution :=
  match stop with
  | .help => { ending := .finished, output := CommandLine.helpText, errors := "" }
  | .version => { ending := .finished, output := CommandLine.versionText, errors := "" }
  | other =>
      { ending := .refused other, output := "", errors := CommandLine.refusalText other }

/-- What is written about a run of the given options. -/
def present (options : Options) (environment : Environment)
    (outcome : Logged (Except RunError Summary)) : Execution :=
  let notices := .argumentsParsed options.describe :: outcome.notices
  let lines := noticeLines options.verbosity (colorsNotices environment) notices
  match outcome.value with
  | .ok summary =>
      { ending := .finished
        output := lines ++ summary.text (colorsSummary environment) ++ "\n"
        errors := "" }
  | .error error => { ending := .failed error, output := lines, errors := report error }

variable {m : Type → Type} [Monad m] [FileSystem m]

/-- The whole program. -/
def execute (arguments : List String) (environment : Environment) (clock : Clock) :
    m Execution :=
  match CommandLine.parse arguments with
  | .error stop => pure (refuse stop)
  | .ok options => do
      let outcome ← (run options environment clock : LoggedT m _).run
      return present options environment outcome

end Console

end Rollup
