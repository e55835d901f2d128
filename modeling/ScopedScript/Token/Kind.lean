namespace ScopedScript

inductive TokenKind
  | leftBrace | rightBrace | leftBracket | rightBracket | leftParen | rightParen | semicolon
  | plus | minus | slash | star | equal | bang
  | bitwiseOr | bitwiseAnd | bitwiseXor | bitwiseComplement
  | greaterEqual | lessEqual | greater | less
  | wordIs | wordNot | wordIf | wordWhile | wordDo | wordFor | wordVar | wordReturn
  | wordTrue | wordFalse | wordNull | wordAnd | wordOr
  | identifier | number | text
deriving DecidableEq, Inhabited

namespace TokenKind

def name : TokenKind → String
  | leftBrace => "left-brace"
  | rightBrace => "right-brace"
  | leftBracket => "left-bracket"
  | rightBracket => "right-bracket"
  | leftParen => "left-paren"
  | rightParen => "right-paren"
  | semicolon => "semicolon"
  | plus => "plus"
  | minus => "minus"
  | slash => "slash"
  | star => "star"
  | equal => "equal"
  | bang => "bang"
  | bitwiseOr => "bitwise-or"
  | bitwiseAnd => "bitwise-and"
  | bitwiseXor => "bitwise-xor"
  | bitwiseComplement => "bitwise-complement"
  | greaterEqual => "greater-equal"
  | lessEqual => "less-equal"
  | greater => "greater"
  | less => "less"
  | wordIs => "is"
  | wordNot => "not"
  | wordIf => "if"
  | wordWhile => "while"
  | wordDo => "do"
  | wordFor => "for"
  | wordVar => "var"
  | wordReturn => "return"
  | wordTrue => "true"
  | wordFalse => "false"
  | wordNull => "null"
  | wordAnd => "and"
  | wordOr => "or"
  | identifier => "identifier"
  | number => "number"
  | text => "string"

def all : List TokenKind := [
  leftBrace, rightBrace, leftBracket, rightBracket, leftParen, rightParen, semicolon,
  plus, minus, slash, star, equal, bang, bitwiseOr, bitwiseAnd, bitwiseXor, bitwiseComplement,
  greaterEqual, lessEqual, greater, less,
  wordIs, wordNot, wordIf, wordWhile, wordDo, wordFor, wordVar, wordReturn,
  wordTrue, wordFalse, wordNull, wordAnd, wordOr, identifier, number, text]

def named? (s : String) : Option TokenKind := all.find? fun k => k.name == s

def label (k : TokenKind) : String :=
  String.ofList (k.name.toList.map fun c => if c = '-' then '_' else c.toUpper)

/-- The kinds whose tokens differ in their text. All other kinds have one fixed text in a
lexicon. -/
def isScanned : TokenKind → Bool
  | identifier | number | text => true
  | _ => false

theorem named?_name (k : TokenKind) : named? k.name = some k := by
  cases k <;> decide

theorem name_of_named? {s : String} {k : TokenKind} (h : named? s = some k) : k.name = s := by
  simpa using List.find?_some h

end TokenKind

end ScopedScript
