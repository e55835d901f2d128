import ScopedScript.Datum.Equality

namespace ScopedScript

inductive Precedence
  | none | assignment | or | and | equality | comparison | term | factor | unary | primary
deriving DecidableEq, Inhabited

namespace Precedence

def rank : Precedence → Nat
  | none => 0
  | assignment => 1
  | or => 2
  | and => 3
  | equality => 4
  | comparison => 5
  | term => 6
  | factor => 7
  | unary => 8
  | primary => 9

def all : List Precedence :=
  [none, assignment, or, and, equality, comparison, term, factor, unary, primary]

def label : Precedence → String
  | none => "NONE"
  | assignment => "ASSIGNMENT"
  | or => "OR"
  | and => "AND"
  | equality => "EQUALITY"
  | comparison => "COMPARISON"
  | term => "TERM"
  | factor => "FACTOR"
  | unary => "UNARY"
  | primary => "PRIMARY"

/-- What a character adds to a text in capitals, as far as that is ASCII: besides the ASCII letters
these are the dotless i, the long s, the sharp s and the Latin ligatures. -/
def capitals (c : Char) : List Char :=
  match c with
  | 'ı' => ['I']
  | 'ſ' => ['S']
  | 'ß' => ['S', 'S']
  | 'ﬀ' => ['F', 'F']
  | 'ﬁ' => ['F', 'I']
  | 'ﬂ' => ['F', 'L']
  | 'ﬃ' => ['F', 'F', 'I']
  | 'ﬄ' => ['F', 'F', 'L']
  | 'ﬅ' | 'ﬆ' => ['S', 'T']
  | c => [c.toUpper]

def named? (s : String) : Option Precedence :=
  let name := String.ofList (s.toList.flatMap capitals)
  all.find? fun p => p.label == name

instance : LE Precedence := ⟨fun p q => p.rank ≤ q.rank⟩

instance (p q : Precedence) : Decidable (p ≤ q) := inferInstanceAs (Decidable (p.rank ≤ q.rank))

theorem rank_injective {p q : Precedence} (h : p.rank = q.rank) : p = q := by
  revert h
  cases p <;> cases q <;> decide

end Precedence

/-- A fixed text of a kind of token. It is not empty: `first` is its first character. -/
structure Spelling where
  kind : TokenKind
  first : Char
  rest : List Char
deriving DecidableEq

namespace Spelling

def chars (s : Spelling) : List Char := s.first :: s.rest

def text (s : Spelling) : String := String.ofList s.chars

def ofText? (kind : TokenKind) (text : String) : Option Spelling :=
  match text.toList with
  | [] => none
  | first :: rest => some ⟨kind, first, rest⟩

def matchesAt (s : Spelling) (cs : List Char) : Bool := s.chars.isPrefixOf cs

theorem text_ne_empty (s : Spelling) : s.text ≠ "" := by
  intro h
  have := congrArg String.toList h
  simp [text, chars] at this

theorem text_of_ofText? {kind : TokenKind} {text : String} {s : Spelling}
    (h : ofText? kind text = some s) : s.kind = kind ∧ s.text = text := by
  unfold ofText? at h
  split at h
  · simp at h
  · rename_i hs
    simp only [Option.some.injEq] at h
    subst h
    refine ⟨rfl, ?_⟩
    simp [Spelling.text, chars, ← hs]

end Spelling

structure Lexicon where
  spellings : List Spelling
  keywords : List (String × TokenKind)
  levels : List (TokenKind × Precedence)

inductive LexiconError
  | unknownKind (name : Datum)
  | scannedKind (name : Datum)
  | emptySpelling (name : Datum)
  | unspelledKeyword (name : Datum)
  | unknownLevel (level name : Datum)

def LexiconError.message : LexiconError → String
  | unknownKind name => "unknown token kind " ++ name.inspect ++ " in lexicon"
  | scannedKind name =>
    name.inspect ++ " is a scanned token kind and cannot have a fixed lexeme"
  | emptySpelling name => "lexeme for " ++ name.inspect ++ " must be a non-empty string"
  | unspelledKeyword name => "keyword " ++ name.inspect ++ " has no lexeme"
  | unknownLevel level name =>
    "unknown precedence level " ++ level.inspect ++ " for " ++ name.inspect

structure LexiconTables where
  lexemes : List (Datum × Datum) := []
  keywords : List Datum := []
  precedence : List (Datum × Datum) := []

namespace Lexicon

def spelling? (l : Lexicon) (kind : TokenKind) : Option Spelling :=
  l.spellings.find? fun s => s.kind == kind

def keyword? (l : Lexicon) (word : String) : Option TokenKind := l.keywords.lookup word

def level (l : Lexicon) (kind : TokenKind) : Precedence := (l.levels.lookup kind).getD .none

def kindNamed (name : Datum) : Except LexiconError TokenKind :=
  match name.text?.bind TokenKind.named? with
  | some kind => .ok kind
  | none => .error (.unknownKind name)

def readSpelling (entry : Datum × Datum) : Except LexiconError Spelling := do
  let kind ← kindNamed entry.1
  if kind.isScanned then throw (.scannedKind entry.1)
  match entry.2.text?.bind (Spelling.ofText? kind) with
  | some s => pure s
  | none => throw (.emptySpelling entry.1)

def readKeyword (spellings : List Spelling) (name : Datum) :
    Except LexiconError (String × TokenKind) := do
  let kind ← kindNamed name
  match spellings.find? fun s => s.kind == kind with
  | some s => pure (s.text, kind)
  | none => throw (.unspelledKeyword name)

def readLevel (entry : Datum × Datum) : Except LexiconError (TokenKind × Precedence) := do
  -- a level that means nothing is reported before a kind that means nothing
  match Precedence.named? entry.2.display with
  | some level =>
    let kind ← kindNamed entry.1
    pure (kind, level)
  | none => throw (.unknownLevel entry.2 entry.1)

def ofTables (tables : LexiconTables) : Except LexiconError Lexicon := do
  let spellings ← (collectEntries Datum.equals tables.lexemes).mapM readSpelling
  let keywords ← tables.keywords.mapM (readKeyword spellings)
  let levels ← (collectEntries Datum.equals tables.precedence).mapM readLevel
  pure ⟨spellings, collectEntries (· == ·) keywords, levels⟩

/-- The texts of the standard lexicon. A text stands before its own beginnings. -/
def standardTexts : List (TokenKind × String) := [
  (.leftBrace, "\x7b"), (.rightBrace, "\x7d"), (.leftBracket, "["), (.rightBracket, "]"),
  (.leftParen, "("), (.rightParen, ")"), (.semicolon, ";"), (.plus, "+"), (.minus, "-"),
  (.slash, "/"), (.star, "*"), (.equal, "="), (.bang, "!"), (.bitwiseOr, "|"),
  (.bitwiseAnd, "&"), (.bitwiseXor, "^"), (.bitwiseComplement, "~"), (.greaterEqual, ">="),
  (.lessEqual, "<="), (.greater, ">"), (.less, "<"), (.wordIs, "is"), (.wordNot, "not"),
  (.wordIf, "if"), (.wordWhile, "while"), (.wordDo, "do"), (.wordFor, "for"), (.wordVar, "var"),
  (.wordReturn, "return"), (.wordTrue, "true"), (.wordFalse, "false"), (.wordNull, "null"),
  (.wordAnd, "and"), (.wordOr, "or")]

def standardKeywords : List TokenKind := [
  .wordIs, .wordNot, .wordIf, .wordWhile, .wordDo, .wordFor, .wordVar, .wordReturn, .wordTrue,
  .wordFalse, .wordNull, .wordAnd, .wordOr]

def standardLevels : List (TokenKind × Precedence) := [
  (.wordOr, .or), (.wordAnd, .and), (.wordIs, .equality), (.wordNot, .equality),
  (.greater, .comparison), (.greaterEqual, .comparison), (.less, .comparison),
  (.lessEqual, .comparison), (.plus, .term), (.minus, .term), (.star, .factor),
  (.slash, .factor)]

def standard : Lexicon where
  spellings := standardTexts.filterMap fun e => Spelling.ofText? e.1 e.2
  keywords := standardKeywords.map fun k => (k.name, k)
  levels := standardLevels

end Lexicon

end ScopedScript
