import Mathlib.Data.List.Basic

/-!
# Texts of Python

`str` is a list of characters. Decimal digits and white space are those of Unicode, for `str.strip`
and `int` as for `\d` and `\s` of a pattern.
-/

namespace Tickscope.Lib

abbrev Text := List Char

namespace PyText

/-- The code points of the zeros; each is followed by its other nine digits. -/
def decimalZeros : List Nat :=
  [0x30, 0x660, 0x6f0, 0x7c0, 0x966, 0x9e6, 0xa66, 0xae6, 0xb66, 0xbe6, 0xc66, 0xce6, 0xd66, 0xde6,
    0xe50, 0xed0, 0xf20, 0x1040, 0x1090, 0x17e0, 0x1810, 0x1946, 0x19d0, 0x1a80, 0x1a90, 0x1b50,
    0x1bb0, 0x1c40, 0x1c50, 0xa620, 0xa8d0, 0xa900, 0xa9d0, 0xa9f0, 0xaa50, 0xabf0, 0xff10, 0x104a0,
    0x10d30, 0x11066, 0x110f0, 0x11136, 0x111d0, 0x112f0, 0x11450, 0x114d0, 0x11650, 0x116c0,
    0x11730, 0x118e0, 0x11950, 0x11c50, 0x11d50, 0x11da0, 0x16a60, 0x16ac0, 0x16b50, 0x1d7ce,
    0x1d7d8, 0x1d7e2, 0x1d7ec, 0x1d7f6, 0x1e140, 0x1e2f0, 0x1e950, 0x1fbf0]

/-- The value of a decimal digit. -/
def decimal (c : Char) : Option Nat :=
  (decimalZeros.find? fun z => z ≤ c.toNat && c.toNat < z + 10).map (c.toNat - ·)

def spaces : List Nat :=
  [0x9, 0xa, 0xb, 0xc, 0xd, 0x1c, 0x1d, 0x1e, 0x1f, 0x20, 0x85, 0xa0, 0x1680, 0x2000, 0x2001,
    0x2002, 0x2003, 0x2004, 0x2005, 0x2006, 0x2007, 0x2008, 0x2009, 0x200a, 0x2028, 0x2029, 0x202f,
    0x205f, 0x3000]

def isSpace (c : Char) : Bool := spaces.contains c.toNat

/-- `rstrip`, of the characters that satisfy `p`. -/
def rstrip (p : Char → Bool) (text : Text) : Text := (text.reverse.dropWhile p).reverse

/-- `strip` without an argument. -/
def strip (text : Text) : Text := rstrip isSpace (text.dropWhile isSpace)

/-- Digits that follow others, with single underscores between them. -/
def moreDigits (value : Nat) : Text → Option Nat
  | [] => some value
  | '_' :: c :: text => (decimal c).bind fun digit => moreDigits (10 * value + digit) text
  | c :: text => (decimal c).bind fun digit => moreDigits (10 * value + digit) text

def digits : Text → Option Nat
  | [] => none
  | c :: text => (decimal c).bind fun digit => moreDigits digit text

/-- `int` of a text; `none` stands for a `ValueError`. -/
def int (text : Text) : Option Int :=
  match strip text with
  | '-' :: text => (digits text).map fun value => -(value : Int)
  | '+' :: text => (digits text).map fun value => (value : Int)
  | text => (digits text).map fun value => (value : Int)

example : int " -1_0 ".toList = some (-10) := by decide

end PyText

end Tickscope.Lib
