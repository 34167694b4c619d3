/-!
# Reading decimal integers

An integer is an optional sign followed by one or more ASCII digits. The characters are
read from the left, and the first fault found is the one reported: a character that is no
digit, or a digit with which the value leaves the range.
-/

namespace Backbox.Text

/-- Why a text is not an integer of a range. -/
inductive IntegerFault where
  | empty
  | invalidDigit
  | tooLarge
  | tooSmall
  deriving DecidableEq

/-- The text of the fault. -/
def IntegerFault.message : IntegerFault → String
  | empty => "cannot parse integer from empty string"
  | invalidDigit => "invalid digit found in string"
  | tooLarge => "number too large to fit in target type"
  | tooSmall => "number too small to fit in target type"

/-- A range of integers. -/
structure IntegerRange where
  low : Int
  high : Int

/-- Integers of 64 bits with a sign. -/
def int64Range : IntegerRange := ⟨-9223372036854775808, 9223372036854775807⟩

/-- Integers of 64 bits without a sign. -/
def nat64Range : IntegerRange := ⟨0, 18446744073709551615⟩

/-- Reads the digits that follow `value`, in the direction of the sign. -/
def readDigits (range : IntegerRange) (negative : Bool) (value : Int) :
    List Char → Except IntegerFault Int
  | [] => .ok value
  | c :: rest =>
    if '0' ≤ c ∧ c ≤ '9' then
      let digit : Int := c.toNat - '0'.toNat
      let value := if negative then value * 10 - digit else value * 10 + digit
      if value > range.high then .error .tooLarge
      else if value < range.low then .error .tooSmall
      else readDigits range negative value rest
    else .error .invalidDigit

/-- Reads an integer of a range. A minus sign belongs only to ranges that go below zero. -/
def readInteger (range : IntegerRange) (s : String) : Except IntegerFault Int :=
  match s.toList with
  | [] => .error .empty
  | ['+'] | ['-'] => .error .invalidDigit
  | '+' :: digits => readDigits range false 0 digits
  | '-' :: digits =>
    if range.low < 0 then readDigits range true 0 digits else .error .invalidDigit
  | digits => readDigits range false 0 digits

end Backbox.Text
