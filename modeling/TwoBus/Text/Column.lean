/-!
# Fixed-width text

The log of the machine is made of columns: addresses in hexadecimal, register values aligned on the
right, names aligned on the left. A printed string ends at its first NUL.
-/

namespace TwoBus.Text

/-- The text before its first NUL: what remains of a string once it is printed. -/
def untilNul (s : String) : String :=
  String.ofList (s.toList.takeWhile (· ≠ '\x00'))

/-- The text moved to the right end of a column of `width` characters; a longer text overflows. -/
def alignRight (width : Nat) (s : String) : String :=
  String.ofList (s.toList.leftpad width ' ')

/-- The text moved to the left end of a column of `width` characters; a longer text overflows. -/
def alignLeft (width : Nat) (s : String) : String :=
  String.ofList (s.toList.rightpad width ' ')

/-- An address in upper-case hexadecimal with at least four digits. -/
def hexAddress (a : Nat) : String :=
  String.ofList (((Nat.toDigits 16 a).map Char.toUpper).leftpad 4 '0')

end TwoBus.Text
