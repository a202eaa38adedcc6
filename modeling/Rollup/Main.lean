/-
The program on real files.
-/

import Rollup.Console
import Std.Time.DateTime.Timestamp

open Rollup

/-- What an error of the operating system means to a run. -/
def storeFaultOf : IO.Error → StoreFault
  | .noFileOrDirectory _ _ _ => .notFound
  | error => .other (toString error)

/-- An action whose errors are answers. -/
def answered {α : Type} (action : IO α) : IO (Except StoreFault α) := do
  let result ← action.toBaseIO
  match result with
  | .ok value => return .ok value
  | .error error => return .error (storeFaultOf error)

instance : FileSystem IO where
  readFile := fun name => answered do
    let bytes ← IO.FS.readBinFile name
    return bytes.data.toList
  createFolders := fun name => answered (IO.FS.createDirAll name)
  writeFile := fun name bytes => answered (IO.FS.writeBinFile name (ByteArray.mk bytes.toArray))

def main (arguments : List String) : IO UInt32 := do
  let dataDirectory ← IO.getEnv "DIRBUBBLE_DATA_DIR"
  let home ← IO.getEnv "HOME"
  let noColor ← IO.getEnv "NO_COLOR"
  let forceColor ← IO.getEnv "CLICOLOR_FORCE"
  let environment : Environment :=
    { dataDirectory := dataDirectory
      home := home
      noColor := noColor
      forceColor := forceColor }
  let now ← Std.Time.Timestamp.now
  let execution ←
    Console.execute arguments environment (UInt64.ofNat now.toSecondsSinceUnixEpoch.val.toNat)
  IO.print execution.output
  IO.eprint execution.errors
  return UInt32.ofNat execution.ending.code
