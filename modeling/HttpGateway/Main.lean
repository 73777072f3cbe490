import HttpGateway.CommandLine

/-!
# The program

Lists the kinds of predicates and filters, or checks a configuration file and lists its routes.
-/

namespace HttpGateway.CommandLine

/-- Reads and checks a configuration file, or takes the usual settings if there is none. -/
def loadConfig (file : Option String) : IO (Except ConfigError GatewayConfig) :=
  match file with
  | none => return .ok {}
  | some name => do
    match ← (IO.FS.readBinFile name).toBaseIO with
    | .error _ => return GatewayConfig.load none
    | .ok bytes => return GatewayConfig.load (some bytes.toList)

/-- Carries out what the options ask for. -/
def run (c : CommandLine) : IO UInt32 := do
  if c.listKinds then
    kindLines.forM IO.println
    return 0
  else
    match ← loadConfig c.config with
    | .error cause =>
      IO.eprintln cause.message
      return 1
    | .ok config =>
      (checkLines config).forM IO.println
      return 0

end HttpGateway.CommandLine

def main (arguments : List String) : IO UInt32 :=
  match HttpGateway.CommandLine.parse arguments with
  | .error cause => do
    IO.eprintln cause.message
    return 2
  | .ok c => c.run
