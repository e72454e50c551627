import SnapshotTable.Text.Joining
import SnapshotTable.Text.Unassigned

/-!
Classes of characters in Unicode 17.0 and how a single character is shown between quotes.
-/

namespace SnapshotTable.Text

set_option autoImplicit false

/-- The property White_Space. -/
def blank : CodePoints where
  ranges := [
    (0x09, 0x0D), (0x20, 0x20), (0x85, 0x85), (0xA0, 0xA0), (0x1680, 0x1680), (0x2000, 0x200A),
    (0x2028, 0x2029), (0x202F, 0x202F), (0x205F, 0x205F), (0x3000, 0x3000)]

def isBlank (character : Char) : Bool := blank.contains character

def trim (characters : List Char) : List Char :=
  ((characters.dropWhile isBlank).reverse.dropWhile isBlank).reverse

/-- Controls, formatting characters, private-use characters, and separators other than the space:
general categories Cc, Cf, Co, Zl, Zp and Zs. -/
def invisible : CodePoints where
  ranges := [
    (0x00, 0x1F), (0x7F, 0xA0), (0xAD, 0xAD), (0x600, 0x605), (0x61C, 0x61C), (0x6DD, 0x6DD),
    (0x70F, 0x70F), (0x890, 0x891), (0x8E2, 0x8E2), (0x1680, 0x1680), (0x180E, 0x180E),
    (0x2000, 0x200F), (0x2028, 0x202F), (0x205F, 0x2064), (0x2066, 0x206F), (0x3000, 0x3000),
    (0xE000, 0xF8FF), (0xFEFF, 0xFEFF), (0xFFF9, 0xFFFB), (0x110BD, 0x110BD), (0x110CD, 0x110CD),
    (0x13430, 0x1343F), (0x1BCA0, 0x1BCA3), (0x1D173, 0x1D17A), (0xE0001, 0xE0001),
    (0xE0020, 0xE007F), (0xF0000, 0xFFFFD), (0x100000, 0x10FFFD)]

/-- The letters that stand for a missing one and have no shape themselves. -/
def filler : CodePoints where
  ranges := [(0x115F, 0x1160), (0x3164, 0x3164), (0xFFA0, 0xFFA0)]

/-- Whether a character cannot be seen standing alone. -/
def isHidden (character : Char) : Bool :=
  invisible.contains character || filler.contains character || joining.contains character ||
    unassigned.contains character

def hexDigits (number : Nat) : String := String.ofList (Nat.toDigits 16 number)

/-- A character between single quotes. A quote, a backslash and the common controls have short
escapes; other hidden characters are shown by number. -/
def quoted (character : Char) : String :=
  let inner := match character with
    | '\x5c' => "\\\\"
    | '\x27' => "\\'"
    | '\n' => "\\n"
    | '\r' => "\\r"
    | '\t' => "\\t"
    | '\x00' => "\\0"
    | other =>
      if isHidden other then "\\u\x7b" ++ hexDigits other.toNat ++ "\x7d"
      else String.singleton other
  "'" ++ inner ++ "'"

end SnapshotTable.Text
