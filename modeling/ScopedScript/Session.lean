import ScopedScript.Parser.Statement
import ScopedScript.Report
import ScopedScript.Statement.Run

namespace ScopedScript

structure SourceRun where
  result : Except Failure Nat
  session : Session
  trace : Array String

structure Answer where
  bindings : List (String × Value)
  error : Option (String × Option Location)

namespace Session

def rootVars (s : Session) : List (Variable Value) :=
  (s.store.scopes[s.root]?.map Scope.vars).getD []

def bindings (s : Session) : List (String × Value) := s.store.snapshot s.root

def get (s : Session) (name : String) : Except ScriptError Value :=
  match s.store.view s.root name with
  | some value => .ok value
  | none => .error ⟨.unknownVariable name, none⟩

def tokenNotes (tokens : List Token) : List String := tokens.map fun t => "token " ++ t.describe

def load (settings : Settings) (lexicon : Lexicon) (source : String) :
    Except Failure Block × Array String :=
  let scan := lexicon.scan source
  let noted (lines : List String) : Array String :=
    if settings.tracing then lines.toArray else #[]
  match scan.error? with
  | some e => (.error (.error e), noted (lexicon.notes scan))
  | none =>
    let tokens := lexicon.tokens scan
    (lexicon.parseTokens tokens scan.stop, noted (lexicon.notes scan ++ tokenNotes tokens))

def run (s : Session) (settings : Settings) (lexicon : Lexicon) (source : String) : SourceRun :=
  match load settings lexicon source with
  | (.error f, trace) => ⟨.error f, s, trace⟩
  | (.ok program, trace) =>
    match Block.run settings program ⟨s, trace⟩ with
    | ⟨.ok (), m⟩ => ⟨.ok program.length, m.toSession, m.trace⟩
    | ⟨.error f, m⟩ => ⟨.error f, m.toSession, m.trace⟩

def reset (s : Session) : Session := { s with current := s.root }

def tooDeepReport (n : Nesting) : String := "RecursionError: " ++ (Fault.tooDeep n).message

def answer (s : Session) (source : String) (result : Except Failure Nat) : Except Fault Answer :=
  match result with
  | .ok _ => .ok ⟨s.bindings, none⟩
  | .error (.error e) => .ok ⟨s.bindings, some (e.report source, e.location)⟩
  | .error (.fault (.tooDeep n)) => .ok ⟨s.bindings, some (tooDeepReport n, none)⟩
  | .error (.fault f) => .error f

/-- Runs a source in the current scope and answers with a report. The outermost scope is the
current one afterwards. -/
def handle (s : Session) (settings : Settings) (source : String) :
    Except Fault Answer × Session × Array String :=
  let run := s.run settings .standard source
  let session := run.session.reset
  (session.answer source run.result, session, run.trace)

end Session

/-- Whether a variable still holds the same value: an equal one of the same type, or the very same
number that is no number. -/
def Variable.unchanged (v w : Variable Value) : Bool :=
  v.value.equals w.value || (v.value.isNaN && w.value.isNaN && v.origin == w.origin)

def changesBy {α : Type} (unchanged : Variable α → Variable α → Bool)
    (earlier later : List (Variable α)) : List (Variable α) :=
  later.filter fun w =>
    match earlier.find? fun v => v.name == w.name with
    | some v => !unchanged v w
    | none => true

def changes (earlier later : List (Variable Value)) : List (Variable Value) :=
  changesBy Variable.unchanged earlier later

end ScopedScript
