/-
The command line.

Arguments are taken from left to right.  An option whose value is the next
argument, and the manifest, wait until something else is taken; only then is
their value checked.  An unknown argument stops at once, whatever waits.
-/

import Rollup.Notice
import Rollup.QuotedText

namespace Rollup

/-! ### Options -/

inductive Verbosity where
  | upTo (level : Level)
  | silent
  deriving DecidableEq

namespace Verbosity

def all : List Verbosity :=
  [.upTo .trace, .upTo .debug, .upTo .info, .upTo .warn, .upTo .error, .silent]

def name : Verbosity → String
  | .upTo .trace => "trace"
  | .upTo .debug => "debug"
  | .upTo .info => "info"
  | .upTo .warn => "warn"
  | .upTo .error => "error"
  | .silent => "silent"

def title : Verbosity → String
  | .upTo .trace => "Trace"
  | .upTo .debug => "Debug"
  | .upTo .info => "Info"
  | .upTo .warn => "Warn"
  | .upTo .error => "Error"
  | .silent => "Silent"

def ofName? (name : String) : Option Verbosity :=
  all.find? fun verbosity => verbosity.name = name

def shows : Verbosity → Notice → Bool
  | .upTo level, notice => level.severity ≤ notice.level.severity
  | .silent, _ => false

end Verbosity

structure Options where
  manifest : String
  verbosity : Verbosity
  dataDirectory : Option String
  detached : Bool
  deriving DecidableEq

namespace Options

def describe (options : Options) : String :=
  let directory :=
    match options.dataDirectory with
    | none => "None"
    | some directory => s!"Some({quotedName directory})"
  "Cli \x7b manifest: " ++ quotedName options.manifest ++
    ", log_level: " ++ options.verbosity.title ++ ", data_dir: " ++ directory ++
    ", detached: " ++ toString options.detached ++ " \x7d"

end Options

/-- Why there is nothing to run. -/
inductive Stop where
  | help
  | version
  | missingManifest
  | badValue
  | repeatedOption
  | neededNoValue
  | unknownArgument
  deriving DecidableEq

namespace CommandLine

/-! ### Help -/

def programName : String := "dirbubble"

def versionText : String := programName ++ " 0.1.0\n"

def helpLines : List String :=
  ["Applies a batch of file metadata mutations and bubbles the aggregates of " ++
      "every affected directory",
    "",
    "Usage: dirbubble [OPTIONS] <MANIFEST>",
    "",
    "Arguments:",
    "  <MANIFEST>  YAML manifest listing upserted and removed files",
    "",
    "Options:",
    "  -l, --log-level <LOG_LEVEL>  [default: warn] " ++
      "[possible values: trace, debug, info, warn, error, silent]",
    "  -d, --data-dir <DATA_DIR>    Directory holding the metadata snapshot",
    "      --detached               Fire the refreshes without collecting their results",
    "  -h, --help                   Print help",
    "  -V, --version                Print version"]

def helpText : String := String.join (helpLines.map (· ++ "\n"))

/-- What is said about arguments that are refused. -/
def refusalText : Stop → String
  | .missingManifest => "error: the manifest is missing\n"
  | .badValue => "error: an argument has no valid value\n"
  | .repeatedOption => "error: an option is given twice\n"
  | .neededNoValue => "error: a flag takes no value\n"
  | .unknownArgument => "error: an argument is unknown\n"
  | .help | .version => ""

/-! ### Taking arguments -/

inductive Slot where
  | manifest
  | verbosity
  | dataDirectory
  deriving DecidableEq

structure Taken where
  manifest : Option String
  verbosity : Option Verbosity
  dataDirectory : Option String
  detached : Bool
  /-- what waits to be checked, with its value if that was seen -/
  waiting : Option (Slot × Option String)
  /-- the next argument may be the value that the waiting option lacks -/
  expectsValue : Bool
  hasManifest : Bool
  /-- only arguments without a hyphen follow -/
  onlyPlain : Bool

namespace Taken

def start : Taken :=
  { manifest := none
    verbosity := none
    dataDirectory := none
    detached := false
    waiting := none
    expectsValue := false
    hasManifest := false
    onlyPlain := false }

/-- Checks and keeps a value.  An option is given once. -/
def keep (slot : Slot) (value : String) (taken : Taken) : Except Stop Taken :=
  match slot with
  | .manifest => if value = "" then .error .badValue else .ok { taken with manifest := some value }
  | .dataDirectory =>
      if taken.dataDirectory.isSome then .error .repeatedOption
      else if value = "" then .error .badValue
      else .ok { taken with dataDirectory := some value }
  | .verbosity =>
      if taken.verbosity.isSome then .error .repeatedOption
      else
        match Verbosity.ofName? value with
        | none => .error .badValue
        | some verbosity => .ok { taken with verbosity := some verbosity }

def settle (taken : Taken) : Except Stop Taken :=
  match taken.waiting with
  | none => .ok taken
  | some (_, none) => .error .badValue
  | some (slot, some value) =>
      { taken with waiting := none, expectsValue := false }.keep slot value

/-- Takes an option with its value, or one whose value is still to come. -/
def takeOption (slot : Slot) (value : Option String) (taken : Taken) : Except Stop Taken :=
  match taken.settle with
  | .error stop => .error stop
  | .ok settled =>
      match value with
      | some value => settled.keep slot value
      | none => .ok { settled with waiting := some (slot, none), expectsValue := true }

def takeDetached (taken : Taken) : Except Stop Taken :=
  match taken.settle with
  | .error stop => .error stop
  | .ok settled =>
      if settled.detached then .error .repeatedOption
      else .ok { settled with detached := true }

def takeStop (stop : Stop) (taken : Taken) : Except Stop Taken :=
  match taken.settle with
  | .error earlier => .error earlier
  | .ok _ => .error stop

/-- Takes an argument without a hyphen: the value that is still to come, or else
the manifest. -/
def takePlain (argument : String) (taken : Taken) : Except Stop Taken :=
  match taken.waiting with
  | some (slot, none) =>
      if taken.expectsValue then
        .ok { taken with waiting := some (slot, some argument), expectsValue := false }
      else if taken.hasManifest then .error .unknownArgument
      else .error .badValue
  | _ =>
      if taken.hasManifest then .error .unknownArgument
      else
        match taken.settle with
        | .error stop => .error stop
        | .ok settled =>
            .ok
              { settled with
                waiting := some (.manifest, some argument)
                hasManifest := true }

def takeLong (name : String) (value : Option String) (taken : Taken) : Except Stop Taken :=
  if name = "log-level" then taken.takeOption .verbosity value
  else if name = "data-dir" then taken.takeOption .dataDirectory value
  else if name = "detached" ∨ name = "help" ∨ name = "version" then
    if value.isSome then .error .neededNoValue
    else if name = "detached" then taken.takeDetached
    else if name = "help" then taken.takeStop .help
    else taken.takeStop .version
  else .error .unknownArgument

/-- The value attached to a short option, with or without an equals sign. -/
def attachedValue : List Char → Option String
  | [] => none
  | '=' :: value => some (String.ofList value)
  | value => some (String.ofList value)

/-- Takes the letter behind one hyphen; none of them lets another follow. -/
def takeShort (letters : List Char) (taken : Taken) : Except Stop Taken :=
  match letters with
  | 'l' :: rest => taken.takeOption .verbosity (attachedValue rest)
  | 'd' :: rest => taken.takeOption .dataDirectory (attachedValue rest)
  | 'h' :: _ => taken.takeStop .help
  | 'V' :: _ => taken.takeStop .version
  | _ => .error .unknownArgument

/-- Splits the text of a long option at its first equals sign. -/
def splitLong (text : List Char) : String × Option String :=
  let name := String.ofList (text.takeWhile (· != '='))
  match text.dropWhile (· != '=') with
  | [] => (name, none)
  | _ :: value => (name, some (String.ofList value))

def take (argument : String) (taken : Taken) : Except Stop Taken :=
  if taken.onlyPlain then taken.takePlain argument
  else
    match argument.toList with
    | ['-', '-'] => .ok { taken with onlyPlain := true, expectsValue := false }
    | '-' :: '-' :: text =>
        let (name, value) := splitLong text
        taken.takeLong name value
    | '-' :: letter :: rest => taken.takeShort (letter :: rest)
    | _ => taken.takePlain argument

def takeAll (taken : Taken) : List String → Except Stop Taken
  | [] => .ok taken
  | argument :: rest =>
      match taken.take argument with
      | .error stop => .error stop
      | .ok next => next.takeAll rest

def finish (taken : Taken) : Except Stop Options :=
  match taken.settle with
  | .error stop => .error stop
  | .ok settled =>
      match settled.manifest with
      | none => .error .missingManifest
      | some manifest =>
          .ok
            { manifest := manifest
              verbosity := settled.verbosity.getD (.upTo .warn)
              dataDirectory := settled.dataDirectory
              detached := settled.detached }

end Taken

def parse (arguments : List String) : Except Stop Options :=
  match Taken.start.takeAll arguments with
  | .error stop => .error stop
  | .ok taken => taken.finish

end CommandLine

end Rollup
