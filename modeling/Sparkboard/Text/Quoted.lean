import Sparkboard.Text.Extender
import Sparkboard.Text.Ignorable
import Sparkboard.Text.Invisible
/-!
# Quoted text in messages

A message shows a text between quotes.  What cannot be seen there on its own is written as an
escape: characters that show nothing or may be left out, and marks that would melt into the
character in front.
-/

namespace Sparkboard.Text

def numbered (c : Char) : List Char :=
  '\\' :: 'u' :: '\x7b' :: (Nat.toDigits 16 c.toNat ++ ['\x7d'])

def shown (c : Char) : List Char :=
  if c = '\x00' then ['\\', '0']
  else if c = '\t' then ['\\', 't']
  else if c = '\n' then ['\\', 'n']
  else if c = '\r' then ['\\', 'r']
  else if c = '"' then ['\\', '"']
  else if c = '\\' then ['\\', '\\']
  else if isExtender c || isIgnorable c || isInvisible c then numbered c
  else [c]

def quoted (s : String) : String :=
  String.ofList ('"' :: (s.toList.flatMap shown ++ ['"']))

end Sparkboard.Text
