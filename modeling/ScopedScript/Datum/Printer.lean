import ScopedScript.Datum.Inspect

namespace ScopedScript

def defaultIndent : Nat := 2

def indentation (width : Nat) (level : Int) : String :=
  String.ofList (List.replicate (width * level.toNat) ' ')

def declarationText (name content : String) : String := "var " ++ name ++ " = " ++ content ++ ";"

def MethodHead.render (m : MethodHead) : String :=
  "var " ++ m.name ++ "(" ++ " ".intercalate m.parameters ++ ") \x7b ... \x7d"

def blockText (width : Nat) (level : Int) (declarations : List String) : String :=
  if declarations.isEmpty then "\x7b\x7d"
  else
    let inner := indentation width (level + 1)
    "\x7b\n" ++ "\n".intercalate (declarations.map (inner ++ ·)) ++ "\n" ++
      indentation width level ++ "\x7d"

namespace Datum

mutual

def render (width : Nat) (level : Int) : Datum → String
  | value v => v.render
  | int n => Number.intText n
  | cell name content => declarationText name (content.render width level)
  | method m => m.render
  | scope _ cells methods =>
    blockText width level
      (renderCells width (level + 1) cells ++ methods.map MethodHead.render)
  | map entries => "\n".intercalate (renderEntries width level entries)
  | expr e => e.render
  | d => d.inspect

def renderCells (width : Nat) (level : Int) : List (String × Datum) → List String
  | [] => []
  | (name, content) :: cells =>
    declarationText name (content.render width level) :: renderCells width level cells

def renderEntries (width : Nat) (level : Int) : List (Datum × Datum) → List String
  | [] => []
  | (key, content) :: entries =>
    (indentation width level ++ declarationText key.display (content.render width level)) ::
      renderEntries width level entries

end

end Datum

class Printable (α : Type) where
  inspect : α → String
  render : (width : Nat) → (level : Int) → α → String

instance : Printable Value := ⟨Value.inspect, fun _ _ v => v.render⟩

instance : Printable Datum := ⟨Datum.inspect, Datum.render⟩

def renderBindings (bindings : List (String × Value)) : String :=
  "\n".intercalate (bindings.map fun b => declarationText b.1 b.2.render)

end ScopedScript
