import ConnectionBroker.Text.Digits
import ConnectionBroker.Text.Glyphless

/-! # Quoted text for diagnostics

A text between quotation marks in which a mark, a backslash and every character without a glyph
of its own are written as escapes.
-/

namespace ConnectionBroker.Text.Quoted

/-- A character as it stands inside quotation marks. -/
def escapeChar (c : Char) : List Char :=
  if c = '"' then ['\\', '"']
  else if c = '\\' then ['\\', '\\']
  else if c = '\n' then ['\\', 'n']
  else if c = '\r' then ['\\', 'r']
  else if c = '\t' then ['\\', 't']
  else if c.toNat = 0 then ['\\', '0']
  else if isGlyphless c then ['\\', 'u', '\x7b'] ++ hexText c.toNat ++ ['\x7d']
  else [c]

def quote (text : String) : String :=
  String.ofList ('"' :: text.toList.flatMap escapeChar ++ ['"'])

end ConnectionBroker.Text.Quoted
