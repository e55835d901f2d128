import ScopedScript.Number.Shortest

namespace ScopedScript.Number

structure Layout where
  leastPositional : Int
  firstScientific : Int
  exponentDigits : Nat

def layout : Layout := ⟨-4, 16, 2⟩

def natDigits (n : Nat) : List Char := Nat.toDigits 10 n

def padLeft (width : Nat) (digits : List Char) : List Char :=
  List.replicate (width - digits.length) '0' ++ digits

def positional (digits : List Char) (power : Int) : List Char :=
  match power with
  | .ofNat p =>
    let whole := digits.take (p + 1)
    let fraction := digits.drop (p + 1)
    whole ++ List.replicate (p + 1 - whole.length) '0' ++ '.' ::
      (if fraction.isEmpty then ['0'] else fraction)
  | .negSucc p => '0' :: '.' :: (List.replicate p '0' ++ digits)

def scientific (l : Layout) (digits : List Char) (power : Int) : List Char :=
  let fraction := digits.drop 1
  digits.take 1 ++ (if fraction.isEmpty then [] else '.' :: fraction) ++
    'e' :: (if power < 0 then '-' else '+') ::
      padLeft l.exponentDigits (natDigits power.natAbs)

def Decimal.text (d : Decimal) (l : Layout) : List Char :=
  let digits := natDigits d.digits
  let power := d.exponent + (digits.length - 1 : Nat)
  if l.leastPositional ≤ power ∧ power < l.firstScientific then positional digits power
  else scientific l digits power

def signText (negative : Bool) : List Char := if negative then ['-'] else []

def Parts.text : Parts → List Char
  | .nan => ['n', 'a', 'n']
  | .infinite negative => signText negative ++ ['i', 'n', 'f']
  | .finite negative mantissa exponent =>
    signText negative ++
      (if mantissa = 0 then ['0', '.', '0'] else (shortest mantissa exponent).text layout)

def text (x : Float) : String := String.ofList (parts x).text

def intText : Int → String
  | .ofNat n => String.ofList (natDigits n)
  | .negSucc n => String.ofList ('-' :: natDigits (n + 1))

end ScopedScript.Number
