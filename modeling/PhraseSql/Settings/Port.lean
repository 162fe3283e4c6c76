import PhraseSql.Text.Cut
import PhraseSql.Text.Quoted

namespace PhraseSql.Settings

inductive PortFault where
  | empty
  | invalidDigit
  | tooLarge
  deriving DecidableEq

def PortFault.describe : PortFault → String
  | .empty => "cannot parse integer from empty string"
  | .invalidDigit => "invalid digit found in string"
  | .tooLarge => "number too large to fit in target type"

def digitValue (c : Char) : Nat := c.toNat - '0'.toNat

def readDigits (value : Nat) : List Char → Except PortFault Nat
  | [] => .ok value
  | c :: cs =>
    if !c.isDigit then .error .invalidDigit
    else if value * 10 + digitValue c < UInt16.size then readDigits (value * 10 + digitValue c) cs
    else .error .tooLarge

def readPort : List Char → Except PortFault Nat
  | [] => .error .empty
  | ['+'] => .error .invalidDigit
  | '+' :: digits => readDigits 0 digits
  | digits => readDigits 0 digits

structure PortError where
  raw : String
  fault : PortFault
  deriving DecidableEq

def PortError.message (e : PortError) : String :=
  "PORT must be a valid port number, got " ++ Text.quoted e.raw

def PortError.chain (e : PortError) : String :=
  e.message ++ ": " ++ e.fault.describe

def defaultPort : UInt16 := 8500

def parsePort (raw : String) : Except PortError UInt16 :=
  match readPort (Text.trim raw.toList) with
  | .ok port => .ok (.ofNat port)
  | .error fault => .error ⟨raw, fault⟩

def portSetting : Option String → Except PortError UInt16
  | none => .ok defaultPort
  | some raw => parsePort raw

end PhraseSql.Settings
