import ScopedScript.Parser.Expr
import ScopedScript.Statement.Basic
import ScopedScript.Token.Scanner

namespace ScopedScript

namespace Parser

def closed (stop opener : Location) : Parser Bool := do
  if ← isNext [.rightBrace] then
    let _ ← poll
    pure true
  else if ← atEnd then failAt (.unclosedBlock opener) stop
  else pure false

def block (stop : Location) (one : Parser (Option Statement)) (opener : Location) :
    Parser Block := do
  let statements ← manyUntil (closed stop opener) one
  pure (statements.filterMap id)

def program (one : Parser (Option Statement)) : Parser Block := do
  let statements ← manyUntil atEnd one
  pure (statements.filterMap id)

/-- Takes the names of parameters, which are separated by nothing. They are the texts of the tokens,
as for `Token.toName`. -/
def parameters : Parser (List String) := fun ts =>
  let isName (t : Token) : Bool := t.kind == .identifier
  .done ((ts.takeWhile isName).map Token.lexeme) (ts.dropWhile isName)

def argumentsEnd : Parser Bool := do
  if ← isNext [.rightParen] then pure true else atEnd

def arguments (stop : Location) (expr : Parser Expr) : Parser (List Expr) := do
  let es ← manyUntil argumentsEnd expr
  let _ ← require stop .argumentsEnd
  pure es

def ended {α : Type} (p : Parser α) : Parser α := do
  let a ← p
  skip .semicolon
  pure a

def guarded (stop : Location) (opening : Requirement) (expr : Parser Expr)
    (body : Location → Parser Block) : Parser (Expr × Block) := do
  let condition ← expr
  let opener ← require stop opening
  let statements ← body opener.location
  pure (condition, statements)

def declaration (stop : Location) (expr : Parser Expr) (body : Location → Parser Block) :
    Parser Statement := do
  let name ← require stop .variableName
  match ← poll with
  | none => failAt .unfinishedDeclaration stop
  | some t =>
    match t.kind with
    | .leftParen =>
      let names ← parameters
      let _ ← require stop .parametersEnd
      let opener ← require stop .methodBody
      let statements ← body opener.location
      pure (.method name.toName names statements)
    | .equal =>
      let e ← ended expr
      pure (.declare name.toName (some e))
    | .semicolon => pure (.declare name.toName none)
    | _ => failAt .unfinishedDeclaration t.location

def nameStatement (stop : Location) (expr : Parser Expr) (name : Name) : Parser Statement := do
  match ← poll with
  | none => failAt (.danglingName name.text) stop
  | some t =>
    match t.kind with
    | .equal =>
      let e ← ended expr
      pure (.assign name e)
    | .leftParen =>
      let es ← ended (arguments stop expr)
      pure (.call name es)
    | _ => failAt (.danglingName name.text) t.location

/-- Reads a statement; an empty one is none. It is asked for only where a token is left. -/
def statement (lexicon : Lexicon) (stop : Location) : (depth : Nat) → Parser (Option Statement)
  | 0 => fail (.fault (.tooDeep .source))
  | depth + 1 => do
    let expr := expression lexicon stop depth .assignment
    let body := block stop (statement lexicon stop depth)
    match ← poll with
    | none => failAt .expressionMissing stop
    | some t =>
      match t.kind with
      | .semicolon => pure none
      | .wordVar =>
        let s ← declaration stop expr body
        pure (some s)
      | .identifier =>
        let s ← nameStatement stop expr t.toName
        pure (some s)
      | .wordIf =>
        let (condition, statements) ← guarded stop .branchBody expr body
        pure (some (.branch t.location condition statements))
      | .wordWhile =>
        let (condition, statements) ← guarded stop .loopBody expr body
        pure (some (.loop t.location condition statements))
      | _ => failAt (.unexpectedToken t.lexeme) t.location

end Parser

namespace Lexicon

def parseWithin (l : Lexicon) (depth : Nat) (tokens : List Token) (stop : Location) :
    Except Failure Block :=
  match Parser.program (Parser.statement l stop depth) tokens with
  | .done program _ => .ok program
  | .failed failure _ => .error failure

def parseTokens (l : Lexicon) (tokens : List Token) (stop : Location) : Except Failure Block :=
  l.parseWithin Parser.depthLimit tokens stop

def parse (l : Lexicon) (source : String) : Except Failure Block :=
  match l.tokenize source with
  | .error e => .error (.error e)
  | .ok (tokens, stop) => l.parseTokens tokens stop

end Lexicon

end ScopedScript
