import HttpGateway.Config.Validation
import HttpGateway.Toml.Document

/-!
# Configuration documents

A configuration is written as a document, read with all settings that are left out at their usual
values, and checked before it is used.
-/

namespace HttpGateway

/-- Why a configuration could not be had from a file. -/
inductive ConfigError where
  | missingFile
  | notText
  | document (cause : Toml.DocumentError)
  | shape (cause : DecodeError)
  | invalid (faults : List ConfigFault)
  deriving Repr

/-- The complaints of a check in one line. -/
def ConfigFault.summary (faults : List ConfigFault) : String :=
  "Validation failed: " ++ joinTexts ", " (faults.map ConfigFault.message)

/-- The wording of each cause. -/
def ConfigError.message : ConfigError → String
  | .missingFile => "IO error: No such file or directory (os error 2)"
  | .notText => "IO error: stream did not contain valid UTF-8"
  | .document cause => match cause with
    | .malformed => "Parse error: the document is malformed"
    | .duplicateKey key => "Parse error: duplicate key " ++ ticked key
    | .notTable key => "Parse error: key " ++ ticked key ++ " is no table"
  | .shape cause => "Parse error: " ++ cause.message
  | .invalid faults => ConfigFault.summary faults

namespace GatewayConfig

/-- Reads a configuration without checking it. -/
def read (text : String) : Except ConfigError GatewayConfig :=
  match Toml.parse text with
  | .error cause => .error (.document cause)
  | .ok j => match ofJson .document j with
    | .error cause => .error (.shape cause)
    | .ok c => .ok c

/-- Reads and checks a configuration. -/
def parse (text : String) : Except ConfigError GatewayConfig := do
  let c ← read text
  match c.validate with
  | .ok () => .ok c
  | .error faults => .error (.invalid faults)

/-- Reads and checks the configuration in a file, given its bytes if the file is there. -/
def load (file : Option Bytes) : Except ConfigError GatewayConfig :=
  match file with
  | none => .error .missingFile
  | some bytes => match textOf? bytes with
    | none => .error .notText
    | some text => parse text

end GatewayConfig

end HttpGateway
