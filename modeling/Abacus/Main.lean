import Abacus.Program

/-!
# The main program

Reads files and lines, and prints what the program shows. All decisions are made by
`Abacus.Program`, `Abacus.CommandLine` and `Abacus.Shell`.
-/

namespace Abacus

/-- Whether what is printed is shown in colours: on a terminal, unless the environment asks for
none. -/
def outputStyle : IO Style := do
  let stdout ← IO.getStdout
  let plain := (← IO.getEnv "NO_COLOR").isSome || (← IO.getEnv "TERM") == some "dumb"
  return if (← stdout.isTty) && !plain then .coloured else .plain

/-- The bytes of a file, if it can be opened. -/
def readBytes? (path : String) : IO (Option ByteArray) :=
  try
    let bytes ← IO.FS.readBinFile path
    return some bytes
  catch _ =>
    return none

/-- The text that the bytes of a file stand for. Bytes that are no text in UTF-8 end the program
with a failure of its own, which is not that of a file that could not be opened: nothing of the
file is run, and what is wrong with it is told outside of the output. -/
def decode (path : String) (bytes : ByteArray) : IO String :=
  match String.fromUTF8? bytes with
  | some content => return content
  | none => throw (IO.userError ("the file '" ++ path ++ "' is not a text in UTF-8"))

/-- Answers lines until the shell ends. The status with which it ends. The end of the input is
answered once and then ends the program, also inside of a statement that is still open. -/
partial def converseWith (input output : IO.FS.Stream) (shell : Shell) : IO UInt32 := do
  output.putStr shell.prompt.text
  output.flush
  let line ← input.getLine
  let response := shell.step (if line.isEmpty then Program.endOfInput else line)
  output.putStr response.output
  match response.escaped with
  | some fault =>
    output.putStr (Program.escapeText response fault)
    return 1
  | none =>
    if response.stops || line.isEmpty then return 0
    else converseWith input output response.shell

end Abacus

open Abacus in
/-- Runs a file, or talks to the user. -/
def main (arguments : List String) : IO UInt32 := do
  let style ← outputStyle
  let limits := Limits.standard
  match CommandLine.read arguments with
  | .run ⟨none, maxDepth⟩ =>
    IO.println Shell.intro
    converseWith (← IO.getStdin) (← IO.getStdout) (.start style (World.new maxDepth limits))
  | .run ⟨some path, _⟩ =>
    let content ← (← readBytes? path).mapM (decode path)
    let ending := Program.run style limits (fun _ => content) arguments ""
    IO.print ending.output
    return ending.status.toUInt32
  | _ =>
    let ending := Program.run style limits (fun _ => none) arguments ""
    IO.print ending.output
    return ending.status.toUInt32
