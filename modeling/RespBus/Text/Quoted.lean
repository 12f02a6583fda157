import RespBus.Decimal

/-!
# Quoted Text

A text shown for inspection stands between quotation marks, and a character
that would not show as itself is escaped: the quotation mark and the
backslash, the controls with a short name, and by code point the characters
that are invisible or not assigned.

The table of such characters covers the controls, the format characters of
the general punctuation block, the combining diacritics, the private use
areas and the specials. Characters outside it are written as they are.

## Main definitions

* `isHidden`: A character that does not show as itself.
* `quotedText`: A text between quotation marks.
-/

namespace RespBus

/-- The ranges of code points that do not show as themselves, both ends
    included. -/
def hiddenRanges : List (Nat × Nat) :=
  [(0x00, 0x1F), (0x7F, 0xA0), (0xAD, 0xAD), (0x300, 0x36F), (0x200B, 0x200F),
    (0x2028, 0x202F), (0x205F, 0x206F), (0x3000, 0x3000), (0xE000, 0xF8FF), (0xFEFF, 0xFEFF),
    (0xFFF0, 0xFFFB), (0xFFFE, 0xFFFF), (0xE0000, 0x10FFFF)]

/-- A character that does not show as itself. -/
def isHidden (c : Char) : Bool :=
  hiddenRanges.any fun range => range.1 ≤ c.toNat && c.toNat ≤ range.2

/-- A character inside quotation marks. -/
def quotedChar (c : Char) : List Char :=
  if c = '"' then ['\\', '"']
  else if c = '\\' then ['\\', '\\']
  else if c = '\n' then ['\\', 'n']
  else if c = '\r' then ['\\', 'r']
  else if c = '\t' then ['\\', 't']
  else if c.toNat = 0 then ['\\', '0']
  else if isHidden c then ['\\', 'u', '\x7b'] ++ Nat.toDigits 16 c.toNat ++ ['\x7d']
  else [c]

/-- A text between quotation marks, with escapes for what would not show. -/
def quotedText (text : String) : String :=
  String.ofList ('"' :: text.toList.flatMap quotedChar ++ ['"'])

end RespBus
