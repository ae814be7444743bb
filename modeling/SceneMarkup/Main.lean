import SceneMarkup.Command.Run

/-!
# The program

Carries out the task of the command line with the files of the system.
-/

namespace SceneMarkup
namespace Command

/-- A fault of reading by the error of the system. -/
def ReadFault.ofError : IO.Error → ReadFault
  | .noFileOrDirectory _ _ _ => .notFound
  | .inappropriateType _ code message =>
    if code = 21 then .isDirectory
    else if code = 20 then .notDirectory
    else .other message
  | error => .other (toString error)

/-- The text of some bytes. -/
def textOfBytes (bytes : ByteArray) : Except ReadFault (List Char) :=
  match String.fromUTF8? bytes with
  | some s => .ok s.toList
  | none => .error .notText

/-- The bytes of a stream up to its end, behind those read so far. -/
partial def readRest (stream : IO.FS.Stream) (bytes : ByteArray) : IO ByteArray := do
  let chunk ← stream.read 65536
  if chunk.isEmpty then return bytes
  readRest stream (bytes ++ chunk)

/-- The bytes of a source. -/
def Source.bytes : Source → IO ByteArray
  | .standardInput => do readRest (← IO.getStdin) ByteArray.empty
  | .file path => IO.FS.readBinFile path

/-- The text of a source. -/
def Source.text (source : Source) : IO (Except ReadFault (List Char)) := do
  try
    return textOfBytes (← source.bytes)
  catch error =>
    return .error (ReadFault.ofError error)

/-- Carries out a task. -/
def Task.perform : Task → IO Outcome
  | .finish outcome => return outcome
  | .read source next => do
    let text ← source.text
    (next text).perform

end Command
end SceneMarkup

/-- Runs the program with its arguments. -/
def main (arguments : List String) : IO UInt32 := do
  let directory ← IO.currentDir
  let outcome ← (SceneMarkup.Command.run (directory.toString ++ "/") arguments).perform
  (← IO.getStdout).putStr outcome.out
  (← IO.getStderr).putStr outcome.err
  return outcome.code.toUInt32
