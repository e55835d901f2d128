import ScopedScript.Plain.Format
import ScopedScript.Session
import ScopedScript.Text.Utf8

namespace ScopedScript

inductive Command
  | runFile (path : String) (format : Option Format)
  | unknownOption (option : String)
  | dialog
deriving DecidableEq

inductive Ending
  | exit (status : Nat)
  | fault (f : Fault)
  | notText (e : Text.Utf8Error)
deriving DecidableEq

structure Transcript where
  output : String
  errors : String
  ending : Ending

namespace Command

def formatOptions : List (String × Format) := [("--json", .json), ("--yaml", .yaml)]

def takeFormats (arguments : List String) : List String × Option Format :=
  -- each option is taken out once, and the last one chooses
  formatOptions.foldl (fun (args, format) (option, f) =>
    if args.contains option then (args.erase option, some f) else (args, format))
    (arguments, none)

def ofArguments (arguments : List String) : Command :=
  match takeFormats arguments with
  | ([], _) => dialog
  | (argument :: _, format) =>
    if argument.startsWith "-" then unknownOption argument else runFile argument format

end Command

def traceText (notes : List String) : String :=
  String.join (notes.map fun note => "[DBG] " ++ note ++ "\n")

def asLine (s : String) : String := s ++ "\n"

def withoutLastNewlines (s : String) : String :=
  String.ofList (s.toList.reverse.dropWhile (· == '\n')).reverse

def bindingsOutput (bindings : List (String × Value)) : Option Format → String
  | some format => asLine (withoutLastNewlines (format.write true (.ofBindings bindings)))
  | none => if bindings.isEmpty then "" else asLine (renderBindings bindings)

def runFile (settings : Settings) (path : String) (format : Option Format)
    (contents : Option (List UInt8)) : Transcript :=
  match contents with
  | none => ⟨"", asLine ("Error: file not found: " ++ path), .exit 1⟩
  | some bytes =>
    match Text.decodeUtf8 bytes with
    | .error e => ⟨"", "", .notText e⟩
    | .ok cs =>
      let source := String.ofList (Text.unifyNewlines cs)
      let (answer, _, notes) := Session.start.handle settings source
      let trace := traceText notes.toList
      match answer with
      | .error f => ⟨"", trace, .fault f⟩
      | .ok ⟨_, some (report, _)⟩ => ⟨"", trace ++ asLine report, .exit 1⟩
      | .ok ⟨bindings, none⟩ => ⟨bindingsOutput bindings format, trace, .exit 0⟩

def unknownOptionTranscript (option : String) : Transcript :=
  ⟨"", asLine ("Error: unknown option: " ++ option), .exit 2⟩

namespace Dialog

def greeting : String :=
  asLine "Javy REPL v0.1" ++ asLine "Type 'exit' or press Ctrl+D to quit."

def prompt : String := ">> "

def farewell : String := "\nExiting.\n"

structure Reply where
  output : String
  errors : String
  session : Session
  ending : Option Ending

/-- Runs a line in a session and shows the variables that it changed. Blank characters around a
line do not count, and an empty line does nothing. -/
def reply (settings : Settings) (session : Session) (line : String) : Reply :=
  let line := String.ofList (Text.strip line.toList)
  if line.isEmpty then ⟨"", "", session, none⟩
  else if line = "exit" then ⟨"", "", session, some (.exit 0)⟩
  else
    let earlier := session.rootVars
    let (answer, session, notes) := session.handle settings line
    let trace := traceText notes.toList
    match answer with
    | .error f => ⟨"", trace, session, some (.fault f)⟩
    | .ok ⟨_, some (report, _)⟩ => ⟨"", trace ++ asLine report, session, none⟩
    | .ok ⟨_, none⟩ =>
      let changed := (changes earlier session.rootVars).map fun v => (v.name, v.value)
      let output := if changed.isEmpty then "" else asLine (renderBindings changed)
      ⟨output, trace, session, none⟩

def transcriptFrom (settings : Settings) (session : Session) : List String → Transcript
  | [] => ⟨prompt ++ farewell, "", .exit 0⟩
  | line :: lines =>
    let r := reply settings session line
    match r.ending with
    | some ending => ⟨prompt ++ r.output, r.errors, ending⟩
    | none =>
      let rest := transcriptFrom settings r.session lines
      ⟨prompt ++ r.output ++ rest.output, r.errors ++ rest.errors, rest.ending⟩

def linesOf (input : String) : List String :=
  (Text.inputLines (Text.unifyNewlines input.toList)).map String.ofList

def transcript (settings : Settings) (input : String) : Transcript :=
  let rest := transcriptFrom settings .start (linesOf input)
  ⟨greeting ++ rest.output, rest.errors, rest.ending⟩

end Dialog

namespace Command

def transcript (settings : Settings) (file : String → Option (List UInt8)) (input : String) :
    Command → Transcript
  | runFile path format => ScopedScript.runFile settings path format (file path)
  | unknownOption option => unknownOptionTranscript option
  | dialog => Dialog.transcript settings input

end Command

end ScopedScript
