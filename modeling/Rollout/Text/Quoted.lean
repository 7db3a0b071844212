import Rollout.Text.Combining
import Rollout.Text.Decimal
import Rollout.Text.Unprintable

/-!
# Quoted text

Text between quotation marks, as messages show it. A quotation mark, a backslash, the common
controls and the null character have escapes of two characters; any other character that would not
show, or would attach to its neighbour, is written as its code.
-/

namespace Rollout.Text

/-- The form of one character between quotation marks. -/
def quotedChar (c : Char) : List Char :=
  match c with
  | '\x00' => ['\\', '0']
  | '\t' => ['\\', 't']
  | '\r' => ['\\', 'r']
  | '\n' => ['\\', 'n']
  | '\\' => ['\\', '\\']
  | '"' => ['\\', '"']
  | _ =>
    if isCombining c || isUnprintable c then
      ['\\', 'u', '\x7b'] ++ (Decimal.hexText c.toNat).toList ++ ['\x7d']
    else [c]

/-- A text between quotation marks. -/
def quoted (s : String) : String :=
  String.ofList ('"' :: s.toList.flatMap quotedChar ++ ['"'])

end Rollout.Text
