import ScopedScript.Text.Pattern

namespace ScopedScript.Plain.Yaml

open Text

def grouped : Pattern := .seq .digit (.many (.oneOf "0123456789_"))

def loose : Pattern := .many (.oneOf "0123456789_")

def sign : Pattern := .optional (.oneOf "-+")

def exponent : Pattern := .all [.oneOf "eE", .oneOf "-+", .atLeastOnce .digit]

def sixties : Pattern :=
  .atLeastOnce (.all [.just ':', .optional (.oneOf "012345"), .digit])

def leading : Pattern := .seq (.oneOf "123456789") loose

def timestamp : Pattern :=
  let two := Pattern.all [.digit, .optional .digit]
  let pair := Pattern.all [.digit, .digit]
  let blanks := Pattern.many (.oneOf " \t")
  let zone := Pattern.either (.just 'Z')
    (.all [.oneOf "-+", two, .optional (.all [.just ':', pair])])
  .all [.digit, .digit, .digit, .digit, .just '-', two, .just '-', two,
    .either (.oneOf "Tt") (.atLeastOnce (.oneOf " \t")),
    two, .just ':', pair, .just ':', pair,
    .optional (.all [.just '.', .many .digit]),
    .optional (.all [blanks, .optional zone])]

/-- The texts that are read as something else when they are written plain. -/
def resolved : List Pattern := [
  .anyOf (["yes", "Yes", "YES", "no", "No", "NO", "true", "True", "TRUE", "false", "False",
    "FALSE", "on", "On", "ON", "off", "Off", "OFF", "~", "null", "Null", "NULL", "", "<<",
    "="].map Pattern.word),
  .all [sign, grouped, .just '.', loose, .optional exponent],
  .all [.just '.', grouped, .optional exponent],
  .all [sign, grouped, sixties, .just '.', loose],
  .all [sign, .just '.', .anyOf [.word "inf", .word "Inf", .word "INF"]],
  .all [.just '.', .anyOf [.word "nan", .word "NaN", .word "NAN"]],
  .all [sign, .word "0b", .atLeastOnce (.oneOf "01_")],
  .all [sign, .just '0', .atLeastOnce (.oneOf "01234567_")],
  .all [sign, .either (.just '0') leading],
  .all [sign, .word "0x", .atLeastOnce (.oneOf "0123456789abcdefABCDEF_")],
  .all [sign, leading, sixties],
  .all [.digit, .digit, .digit, .digit, .just '-', .digit, .digit, .just '-', .digit, .digit],
  timestamp]

def isResolved (cs : List Char) : Bool := resolved.any fun p => p.fits cs

end ScopedScript.Plain.Yaml
