import ScopedScript.Number.Numeral
import ScopedScript.Token.Basic

namespace ScopedScript

inductive ErrorKind
  | general
  | grammar
  | name | undefinedName | duplicateName
  | type | conditionType | operation
  | nesting
  | iteration
deriving DecidableEq, Inhabited

def ErrorKind.heading : ErrorKind → String
  | general => "JavyError"
  | grammar => "SyntaxError"
  | name | undefinedName | duplicateName => "NameError"
  | type | conditionType => "TypeError"
  | operation => "InvalidOperationError"
  | nesting => "StructuralError"
  | iteration => "IterationLimitError"

inductive Requirement
  | groupEnd
  | branchBody
  | loopBody
  | variableName
  | parametersEnd
  | methodBody
  | argumentsEnd
deriving DecidableEq

def Requirement.kind : Requirement → TokenKind
  | groupEnd | parametersEnd | argumentsEnd => .rightParen
  | branchBody | loopBody | methodBody => .leftBrace
  | variableName => .identifier

def Requirement.message : Requirement → String
  | groupEnd => ") is expected after a grouped expression"
  | branchBody => "\x7b is expected after an if condition"
  | loopBody => "\x7b is expected after a while condition"
  | variableName => "Variables must have an identifier"
  | parametersEnd => ") is expected after ending method parameters"
  | methodBody => "\x7b is expected after ending a method statement"
  | argumentsEnd => ") is expected after call arguments"

inductive Cause
  | unterminatedText
  | expressionMissing
  | noExpression (lexeme : String)
  | missing (requirement : Requirement)
  | unclosedBlock (opener : Location)
  | unexpectedToken (lexeme : String)
  | unfinishedDeclaration
  | danglingName (name : String)
  | unknownName (name : String)
  | unknownVariable (name : String)
  | unknownMethod (name : String)
  | variableExists (name : String)
  | methodExists (name : String)
  | branchCondition
  | loopCondition
  | prefixOperator (lexeme : String)
  | negation (type : String)
  | operands (left lexeme right : String)
  | numberOperator (lexeme : String)
  | textOperator (left lexeme right : String)
  | repetitionOperands
  | repetitionCount (count : String)
  | outermostScope
  | iterationLimit (limit : Int)
  | other (kind : ErrorKind) (message : String)
deriving DecidableEq

namespace Cause

def kind : Cause → ErrorKind
  | unterminatedText | expressionMissing | noExpression _ | missing _ | unclosedBlock _
  | unexpectedToken _ | unfinishedDeclaration | danglingName _ => .grammar
  | unknownName _ | unknownVariable _ | unknownMethod _ => .undefinedName
  | variableExists _ | methodExists _ => .duplicateName
  | branchCondition | loopCondition => .conditionType
  | prefixOperator _ | negation _ | operands .. | numberOperator _ | textOperator ..
  | repetitionOperands | repetitionCount _ => .operation
  | outermostScope => .nesting
  | iterationLimit _ => .iteration
  | other kind _ => kind

def message : Cause → String
  | unterminatedText => "Unterminated string literal"
  | expressionMissing => "Expected expression."
  | noExpression lexeme => "Expected expression, found " ++ Text.quoted lexeme
  | missing requirement => requirement.message
  | unclosedBlock opener => "\x7d is expected to close the block opened at " ++ opener.text
  | unexpectedToken lexeme => "Unexpected token " ++ Text.quoted lexeme
  | unfinishedDeclaration => "Undefined variables must end with a semicolon"
  | danglingName name => "= or ( is expected after " ++ name
  | unknownName name => "No such variable exists: " ++ name
  | unknownVariable name => "No variable with name " ++ name
  | unknownMethod name => "No method with name " ++ name
  | variableExists name => "Variable " ++ name ++ " already exists in its scope"
  | methodExists name => "Method " ++ name ++ " already exists in its scope"
  | branchCondition => "If conditions must be true or false"
  | loopCondition => "While conditions must be true or false"
  | prefixOperator lexeme => "Unknown unary operator: " ++ lexeme
  | negation type => "Unary minus can only be applied to numbers, not " ++ type
  | operands left lexeme right =>
    "Invalid operation: " ++ left ++ " " ++ lexeme ++ " " ++ right
  | numberOperator lexeme => "Invalid operator: " ++ lexeme
  | textOperator left lexeme right =>
    "Invalid operator or operand types: " ++ left ++ " " ++ lexeme ++ " " ++ right
  | repetitionOperands =>
    "Invalid multiplication operation: exactly one operand must be a number"
  | repetitionCount count => "Cannot repeat text " ++ count ++ " times"
  | outermostScope => "Cannot end scope when current scope is global"
  | iterationLimit limit =>
    "while: iteration limit of " ++ Number.intText limit ++ " exceeded"
  | other _ message => message

end Cause

structure ScriptError where
  cause : Cause
  location : Option Location
deriving DecidableEq

namespace ScriptError

def kind (e : ScriptError) : ErrorKind := e.cause.kind

def message (e : ScriptError) : String := e.cause.message

end ScriptError

inductive Nesting
  | source
  | expression
  | calls
deriving DecidableEq

/-- What stops a run without being an error of the script. -/
inductive Fault
  | repetitionOverflow
  | lengthOverflow
  | outOfMemory
  | numberOverflow (overflow : Numeral.Overflow)
  | loopCap (setting : String)
  | tooDeep (nesting : Nesting)
deriving DecidableEq

def Fault.message : Fault → String
  | repetitionOverflow => "cannot fit 'int' into an index-sized integer"
  | lengthOverflow => "repeated string is too long"
  | outOfMemory => "out of memory"
  | numberOverflow .whole => "int too large to convert to float"
  | numberOverflow .quotient => "integer division result too large for a float"
  | loopCap setting => "JAVY_MAX_LOOP_ITERS must be an integer, got " ++ Text.quoted setting
  | tooDeep _ => "maximum method call depth exceeded"

inductive Failure
  | error (e : ScriptError)
  | fault (f : Fault)
deriving DecidableEq

def Failure.ofCause (cause : Cause) (location : Location) : Failure :=
  .error ⟨cause, some location⟩

end ScopedScript
