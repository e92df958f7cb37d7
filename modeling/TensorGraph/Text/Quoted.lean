import TensorGraph.Text.Shapeless

/-!
A quoted text stands between double quotes. A backslash introduces the five control characters
that have a letter, the backslash and the double quote; any other character without a shape of
its own is written by its code point in hexadecimal.
-/

namespace TensorGraph.Text

/-- The characters written as a backslash and a letter. -/
def escapeLetter? : Char → Option Char
  | '\x00' => some '0'
  | '\t' => some 't'
  | '\r' => some 'r'
  | '\n' => some 'n'
  | '\\' => some '\\'
  | '"' => some '"'
  | _ => none

def hexadecimal (n : Nat) : String := String.ofList (Nat.toDigits 16 n)

def escape (c : Char) : String :=
  match escapeLetter? c with
  | some l => String.ofList ['\\', l]
  | none => if isShapeless c then "\\u\x7b" ++ hexadecimal c.toNat ++ "\x7d" else c.toString

/-- A text between double quotes. -/
def quoted (s : String) : String := "\"" ++ String.join (s.toList.map escape) ++ "\""

end TensorGraph.Text
