import TickTree.Quoted.Combining
import TickTree.Quoted.Invisible

/-!
# Quoted text

Text between double quotes.  Quotes, backslashes, and characters that a reader would not see in
their place are written as escapes.

Main results:

- Definition `Quoted.encode`: the written form of a text.
-/

namespace TickTree

namespace Quoted

/-- The escape of a character by its number. -/
def byNumber (c : Char) : List Char :=
  '\\' :: 'u' :: '\x7b' :: (Nat.toDigits 16 c.toNat ++ ['\x7d'])

/-- A character that is shown by its number: it is combining, or invisible and not a space. -/
def isHidden (c : Char) : Bool := isCombining c || (isInvisible c && c != ' ')

/-- The written form of a character. -/
def encodeChar (c : Char) : List Char :=
  if c = '"' then ['\\', '"']
  else if c = '\\' then ['\\', '\\']
  else if c = '\n' then ['\\', 'n']
  else if c = '\t' then ['\\', 't']
  else if c = '\r' then ['\\', 'r']
  else if c.val = 0 then ['\\', '0']
  else if isHidden c then byNumber c
  else [c]

/-- The written form of a text. -/
def encode (text : String) : String :=
  String.ofList ('"' :: (text.toList.flatMap encodeChar ++ ['"']))

end Quoted

end TickTree
