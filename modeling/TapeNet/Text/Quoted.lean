import TapeNet.Text.Blank
import TapeNet.Text.Printable

/-! # Quoted text

    A text between quotes, for messages. The quotes are single unless the
    text holds a single quote and no double one. The quote itself, the
    backslash and the characters that are not printable are escaped, the
    latter by the shortest of `\n`, `\r`, `\t`, `\xhh`, `\uhhhh` and
    `\Uhhhhhhhh`.
-/

namespace TapeNet.Text

/-- The hexadecimal digits of a number, at least `width` of them. -/
def hex (width n : Nat) : List Char :=
  let digits := Nat.toDigits 16 n
  List.replicate (width - digits.length) '0' ++ digits

/-- The quote that a text is put between. -/
def quoteFor (cs : List Nat) : Char :=
  if cs.contains '\''.toNat && !cs.contains '"'.toNat then '"' else '\''

/-- How a character stands between quotes of the given kind. -/
def escape (quote : Char) (c : Nat) : List Char :=
  if c = quote.toNat || c = '\\'.toNat then ['\\', .ofNat c]
  else if c = '\n'.toNat then ['\\', 'n']
  else if c = '\r'.toNat then ['\\', 'r']
  else if c = '\t'.toNat then ['\\', 't']
  else if isPrintable c then [.ofNat c]
  else if c < 0x100 then '\\' :: 'x' :: hex 2 c
  else if c < 0x10000 then '\\' :: 'u' :: hex 4 c
  else '\\' :: 'U' :: hex 8 c

/-- A text between quotes. -/
def quoted (cs : List Nat) : String :=
  let quote := quoteFor cs
  .ofList (quote :: cs.flatMap (escape quote) ++ [quote])

end TapeNet.Text
