import BootStore.Text.Combining
import BootStore.Text.Unprintable

/-!
# Quoted text

Names and paths in messages stand between double quotes, with everything escaped that would be
unreadable or ambiguous there.
-/
namespace BootStore.Text

/-- Whether a character is written by its code point: it has no printed form, or it would join
the character before it. -/
def needsCode (c : Char) : Bool :=
  !(0x20 ≤ c.toNat && c.toNat ≤ 0x7E) &&
    (unprintableRanges ++ combiningRanges).any fun r => r.1 ≤ c.toNat && c.toNat ≤ r.2

def escapeChar (c : Char) : List Char :=
  match c with
  | '"' => ['\\', '"']
  | '\\' => ['\\', '\\']
  | '\x00' => ['\\', '0']
  | '\t' => ['\\', 't']
  | '\n' => ['\\', 'n']
  | '\r' => ['\\', 'r']
  | _ =>
    if needsCode c then ['\\', 'u', '\x7b'] ++ Nat.toDigits 16 c.toNat ++ ['\x7d'] else [c]

def quote (s : String) : String := String.ofList ('"' :: s.toList.flatMap escapeChar ++ ['"'])

def quoteList (l : List String) : String := "[" ++ ", ".intercalate (l.map quote) ++ "]"

end BootStore.Text
