import ScopedScript.Console.Basic

namespace ScopedScript.Program

def readSettings : IO Settings := do
  let debug ← IO.getEnv "JAVY_DEBUG"
  let cap ← IO.getEnv "JAVY_MAX_LOOP_ITERS"
  pure (.ofTexts debug cap)

def readContents (path : String) : IO (Option (List UInt8)) := do
  try
    let bytes ← IO.FS.readBinFile path
    pure (some bytes.toList)
  catch e =>
    match e with
    | .noFileOrDirectory .. => pure none
    | e => throw e

def write (output errors : String) : IO Unit := do
  (← IO.getStdout).putStr output
  (← IO.getStdout).flush
  (← IO.getStderr).putStr errors

def finish (ending : Ending) : IO UInt32 := do
  match ending with
  | .exit status => pure (UInt32.ofNat status)
  | .fault f => do
    write "" (asLine f.message)
    pure 1
  | .notText e => do
    write "" (asLine e.message)
    pure 1

def answerLines (settings : Settings) (session : Session) :
    List String → IO (Session × Option Ending)
  | [] => pure (session, none)
  | line :: lines => do
    let r := Dialog.reply settings session line
    write r.output r.errors
    match r.ending with
    | some ending => pure (r.session, some ending)
    | none =>
      unless lines.isEmpty do write Dialog.prompt ""
      answerLines settings r.session lines

partial def converse (settings : Settings) (session : Session) : IO UInt32 := do
  write Dialog.prompt ""
  let line ← (← IO.getStdin).getLine
  if line.isEmpty then
    write Dialog.farewell ""
    pure 0
  else
    match ← answerLines settings session (Dialog.linesOf line) with
    | (_, some ending) => finish ending
    | (session, none) => converse settings session

end ScopedScript.Program

open ScopedScript ScopedScript.Program in
def main (arguments : List String) : IO UInt32 := do
  let settings ← readSettings
  match Command.ofArguments arguments with
  | .dialog => do
    write Dialog.greeting ""
    converse settings .start
  | .runFile path format => do
    let t := runFile settings path format (← readContents path)
    write t.output t.errors
    finish t.ending
  | .unknownOption option => do
    let t := unknownOptionTranscript option
    write t.output t.errors
    finish t.ending
