import Mathlib
import Simbus.LongestMatch

/-!
# The lexer of the configuration file

The rules of `config.lex` in their order.  A character stands for one byte of
the file.
-/

namespace Simbus.Config

open LongestMatch

/-- Bytes of a file or of a string. -/
abbrev Text := List Char

/-- The keywords. -/
inductive Keyword where
  | bus | device | env | exec | host | name | pipe | port | process | protocol
  | stderr | stdin | stdout
  deriving DecidableEq, Repr

/-- The keywords in the order of their rules. -/
def Keyword.all : List Keyword :=
  [.bus, .device, .env, .exec, .host, .name, .pipe, .port, .process, .protocol,
    .stderr, .stdin, .stdout]

/-- The word of a keyword. -/
def Keyword.spelling : Keyword → Text
  | .bus => "bus".toList
  | .device => "device".toList
  | .env => "env".toList
  | .exec => "exec".toList
  | .host => "host".toList
  | .name => "name".toList
  | .pipe => "pipe".toList
  | .port => "port".toList
  | .process => "process".toList
  | .protocol => "protocol".toList
  | .stderr => "stderr".toList
  | .stdin => "stdin".toList
  | .stdout => "stdout".toList

/-- Tokens with `configlval`. -/
inductive Token where
  | keyword (keyword : Keyword)
  | integer (value : BitVec 32)
  | string (text : Text)
  | identifier (text : Text)
  | char (char : Char)
  deriving DecidableEq, Repr

/-- The rules. -/
inductive Rule where
  | comment
  | keyword (keyword : Keyword)
  | space
  | integer
  | identifier
  | string
  | single
  deriving DecidableEq, Repr

/-- `[ \t\r\n]`. -/
def isSpace (char : Char) : Bool :=
  char == ' ' || char == '\t' || char == '\r' || char == '\n'

/-- `[a-zA-Z_]`. -/
def isWordStart (char : Char) : Bool :=
  char.isAlpha || char == '_'

/-- `[a-zA-Z0-9_]`. -/
def isWord (char : Char) : Bool :=
  isWordStart char || char.isDigit

/-- The rest of the line. -/
def line (text : Text) : Text :=
  text.takeWhile (· != '\n')

/-- How many characters there are up to and with the last quote. -/
def throughLastQuote (text : Text) : Nat :=
  (text.reverse.dropWhile (· != '"')).length

/-- How many characters the pattern of a rule matches at most. -/
def matchLength : Rule → Text → Nat
  | .comment, text => if text.head? = some '#' then (line text).length else 0
  | .keyword keyword, text =>
      if keyword.spelling.isPrefixOf text then keyword.spelling.length else 0
  | .space, text => if text.head?.any isSpace then 1 else 0
  | .integer, text => (text.takeWhile Char.isDigit).length
  | .identifier, text =>
      if text.head?.any isWordStart then (text.takeWhile isWord).length else 0
  | .string, text =>
      if text.head? = some '"' then
        -- The pattern takes as much of the line as ends with a quote.
        match throughLastQuote (line text.tail) with
        | 0 => 0
        | closing + 1 => closing + 2
      else
        0
  | .single, text => if text.head?.any (· != '\n') then 1 else 0

/-- `[0-7]`. -/
def isOctal (char : Char) : Bool :=
  '0' ≤ char && char ≤ '7'

/-- `strtoul(yytext,0,0)` of digits: with a zero at the front they are octal. -/
def strtoul (digits : Text) : Nat :=
  min (2 ^ 64 - 1)
    (if digits.head? = some '0' then
      Nat.ofDigitChars 8 (digits.takeWhile isOctal) 0
    else
      Nat.ofDigitChars 10 digits 0)

/-- The characters of a C string. -/
def cString (text : Text) : Text :=
  text.takeWhile (· != '\x00')

/-- The token that a rule returns. -/
def action : Rule → Text → Option Token
  | .comment, _ => none
  | .keyword keyword, _ => some (.keyword keyword)
  | .space, _ => none
  | .integer, text => some (.integer (BitVec.ofNat 32 (strtoul text)))
  | .identifier, text => some (.identifier text)
  | .string, text => some (.string (cString text.tail).dropLast)
  | .single, text => text.head?.map .char

/-- The rules of the lexer. -/
def scanner : Scanner Rule Char Token where
  rules :=
    [.comment] ++ Keyword.all.map .keyword ++
      [.space, .integer, .identifier, .string, .single]
  matchLength := matchLength
  action := action

/-- The tokens that `configlex` returns one after the other. -/
def configlex (text : Text) : List Token :=
  scanner.scan text

end Simbus.Config
