import Mathlib.Algebra.Ring.Int.Defs
import Mathlib.Data.Int.Order.Basic

/-!
# Type names of interfaces

`GetPackageName`, `GetVersion`, `GetVersionMajor`, `GetVersionMinor` and `GetComponentName` of
`drivers/hal/common/utils/InterfaceSpecUtil.cpp`, with `ReplaceSubString` of `StringUtil.cpp`. They
read the package, version and component of an interface from a name as
`::android::hardware::nfc::V1_0::INfc`. The exceptions of `std::stoi` and `substr`, which nothing
catches, are `none`.
-/

namespace Vts.Hal

/-- `isspace`. -/
def isSpace (char : Char) : Bool := char ∈ [' ', '\t', '\n', '\x0b', '\x0c', '\r']

/-- `std::stoi`: leading spaces, a sign, and digits; what comes after them is not read. -/
def stoi (text : List Char) : Option Int :=
  let text := text.dropWhile isSpace
  let negative := text.head? = some '-'
  let text := if text.head? = some '-' ∨ text.head? = some '+' then text.tail else text
  let digits := text.takeWhile Char.isDigit
  let number : Nat := digits.foldl (fun number digit => 10 * number + (digit.toNat - '0'.toNat)) 0
  let value : Int := if negative then -number else number
  if digits.isEmpty then none
  else if value < -2 ^ 31 ∨ 2 ^ 31 ≤ value then none
  else some value

/-- `find("::")`. -/
def findColons : List Char → Option Nat
  | ':' :: ':' :: _ => some 0
  | _ :: rest => (findColons rest).map (· + 1)
  | [] => none

/-- `ReplaceSubString(original, "::", ".")`. The search goes on two characters after the place of
the replacement, which is one character long. -/
def replaceColons : List Char → List Char
  | ':' :: ':' :: next :: rest => '.' :: next :: replaceColons rest
  | [':', ':'] => ['.']
  | char :: rest => char :: replaceColons rest
  | [] => []

/-- The difference of `find('V')` and the two colons wraps around for a `V` that is missing or comes
too early: then the whole name is taken. -/
def GetPackageName (type_name : List Char) : List Char :=
  let str := match type_name.idxOf? 'V' with
    | some (index + 2) => type_name.take index
    | _ => type_name
  replaceColons (if findColons str = some 0 then str.drop 2 else str)

def GetVersion (type_name : List Char) : List Char :=
  let str := match type_name.idxOf? 'V' with
    | some index => type_name.drop (index + 1)
    | none => type_name
  match findColons str with
  | some index => str.take index
  | none => str

def GetVersionMajor (version : List Char) ( for_macro : Bool) : Option Int :=
  stoi (version.takeWhile (· ≠ if for_macro then '_' else '.'))

def GetVersionMinor (version : List Char) ( for_macro : Bool) : Option Int :=
  match version.idxOf? (if for_macro then '_' else '.') with
  | some index => stoi (version.drop (index + 1))
  | none => stoi version

/-- Where no colons come after the `V`, the sum of `npos` and their length wraps around to 1. -/
def GetComponentName (type_name : List Char) : Option (List Char) :=
  match type_name.idxOf? 'V' with
  | some index =>
    let str := type_name.drop index
    match findColons str with
    | some colons => some (str.drop (colons + 2))
    | none => some (str.drop 1)
  | none => none

/-- What a type name says. -/
structure TypeName where
  package : String
  version_major : Int
  version_minor : Int
  component : String
deriving DecidableEq

/-- The readings of the driver manager, one after the other. -/
def readTypeName (type_name : String) : Option TypeName := do
  let version_str := GetVersion type_name.toList
  let version_major ← GetVersionMajor version_str true
  let version_minor ← GetVersionMinor version_str true
  let component ← GetComponentName type_name.toList
  some ⟨String.ofList (GetPackageName type_name.toList), version_major, version_minor,
    String.ofList component⟩

/-- The name of an interface as it is written in specifications. -/
def TypeName.text (name : TypeName) : String :=
  let package := name.package.toList.flatMap fun char => if char = '.' then [':', ':'] else [char]
  "::" ++ String.ofList package ++ "::V" ++ toString name.version_major ++ "_" ++
    toString name.version_minor ++ "::" ++ name.component

example : readTypeName "::android::hardware::nfc::V1_0::INfc" =
    some ⟨"android.hardware.nfc", 1, 0, "INfc"⟩ := by decide +kernel

example : (TypeName.mk "android.hardware.nfc" 1 0 "INfc").text =
    "::android::hardware::nfc::V1_0::INfc" := by decide +kernel

end Vts.Hal
