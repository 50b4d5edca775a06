import Zape.Machine.Bytes

/-! Strings as bytes, and what `std.ascii` and `std.fmt` do with them. -/
namespace Zig

open Machine

def text (s : String) : List Byte := s.toList.map fun character => BitVec.ofNat 8 character.toNat

namespace ascii

def toLower (byte : Byte) : Byte :=
  if 0x41 ≤ byte.toNat ∧ byte.toNat ≤ 0x5A then byte ||| 0x20#8 else byte

def lowerString (bytes : List Byte) : List Byte := bytes.map toLower

end ascii

namespace fmt

/-- `{d}` of an unsigned integer. -/
def decimal (value : Nat) : List Byte := (Nat.toDigits 10 value).map fun digit => BitVec.ofNat 8 digit.toNat

def charToDigit (byte : Byte) : Option Nat :=
  if 0x30 ≤ byte.toNat ∧ byte.toNat ≤ 0x39 then some (byte.toNat - 0x30) else none

/-- Decimal digits into an unsigned integer below `bound`. An underscore separates digits; under a minus sign
    every digit but zero is out of range. -/
def accumulate (bound : Nat) (negative : Bool) : Nat → List Byte → Option Nat
  | value, [] => some value
  | value, byte :: bytes =>
    if byte = 0x5F#8 then accumulate bound negative value bytes
    else match charToDigit byte with
      | none => none
      | some digit =>
        let next := value * 10 + digit
        if next < bound ∧ (negative = true → digit = 0) then accumulate bound negative next bytes else none

/-- `parseInt` of an unsigned integer below `bound`, in base ten. -/
def parseInt (bound : Nat) (bytes : List Byte) : Option Nat :=
  let digits (negative : Bool) (bytes : List Byte) : Option Nat :=
    if bytes = [] ∨ bytes.head? = some 0x5F#8 ∨ bytes.getLast? = some 0x5F#8 then none
    else accumulate bound negative 0 bytes
  match bytes with
  | [] => none
  | byte :: rest =>
    if byte = 0x2B#8 then digits false rest
    else if byte = 0x2D#8 then digits true rest
    else digits false bytes

example : parseInt (2 ^ 32) (text "1_024") = some 1024 ∧ parseInt (2 ^ 32) (text "4294967296") = none := by
  decide

end fmt

end Zig
