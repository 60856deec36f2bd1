import Mathlib

/-!
# Argument checks

The checks of strings, integers and predicates in `correctness.rs`.
-/

namespace Nautilus

/-- `CorrectnessError`. -/
inductive ParamError where
  | emptyString (param : String)
  | whitespaceString (param : String)
  | notPositive (param value typeName : String)
  | predicateViolation (message : String)
deriving DecidableEq

/-- `char::is_whitespace`: the Unicode property `White_Space`. -/
def isWhitespace (c : Char) : Bool :=
  let n := c.toNat
  (9 ≤ n && n ≤ 13) || n == 32 || n == 0x85 || n == 0xA0 || n == 0x1680 ||
    (0x2000 ≤ n && n ≤ 0x200A) || n == 0x2028 || n == 0x2029 || n == 0x202F || n == 0x205F ||
    n == 0x3000

def checkValidStringUtf8 (s param : String) : Except ParamError Unit :=
  if s.isEmpty then .error (.emptyString param)
  else if s.toList.any fun c => !isWhitespace c then .ok ()
  else .error (.whitespaceString param)

def checkPositiveU64 (value : Nat) (param : String) : Except ParamError Unit :=
  if value = 0 then .error (.notPositive param (toString value) "u64") else .ok ()

def checkPredicateTrue (predicate : Bool) (failMsg : String) : Except ParamError Unit :=
  if predicate then .ok () else .error (.predicateViolation failMsg)

end Nautilus
